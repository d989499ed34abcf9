import CrazyHarness.Lib.DateTime
import CrazyHarness.Lib.Effects
import CrazyHarness.Lib.Json
import CrazyHarness.Lib.Table
import CrazyHarness.Lib.Texts

/-! # The memory store

`MemoryStore`: a file of records, each with one or two candidates; the last record of a candidate is the
one that counts.  Every call reads the whole file, checks, and appends one record.  The clock is read
anew for every comparison, so the store is run over a sequence of readings that do not decrease.

* `MemoryStep` says what a call that returns does to the candidates (`MemoryCall.run_step`).
* `MemoryCall.run_error`: a call that raises has written nothing. -/

namespace CrazyHarness

open Lib

/-! ### Records -/

/-- `MemorySlot`. -/
inductive MemorySlot where
  | userConstraint
  | worldFact
  | activeConcern
  | episode
  | procedure
  | preference
deriving DecidableEq

/-- `MemoryStatus`. -/
inductive MemoryStatus where
  | candidate
  | approved
  | rejected
  | revoked
  | superseded
  | expired
deriving DecidableEq

/-- `status.value`. -/
def MemoryStatus.value : MemoryStatus → String
  | .candidate => "candidate"
  | .approved => "approved"
  | .rejected => "rejected"
  | .revoked => "revoked"
  | .superseded => "superseded"
  | .expired => "expired"

/-- `MemoryCandidate`. -/
structure MemoryCandidate where
  candidateId : String
  slot : MemorySlot
  content : String
  scope : String
  evidence : List String
  version : ℤ := 1
  expiry : Option DateTime := none
  status : MemoryStatus := .candidate
  createdAt : DateTime
  updatedAt : DateTime
  reviewedBy : Option String := none
  decisionReason : String := ""
  supersedes : Option String := none
  supersededBy : Option String := none
  content_ne : content ≠ "" := by decide
  scope_ne : scope ≠ "" := by decide
  evidence_ne : evidence ≠ [] := by decide
  version_pos : 1 ≤ version := by decide

/-- The other fields are proofs. -/
instance : DecidableEq MemoryCandidate := fun a b =>
  decidable_of_iff
    (a.candidateId = b.candidateId ∧ a.slot = b.slot ∧ a.content = b.content ∧ a.scope = b.scope ∧
      a.evidence = b.evidence ∧ a.version = b.version ∧ a.expiry = b.expiry ∧ a.status = b.status ∧
      a.createdAt = b.createdAt ∧ a.updatedAt = b.updatedAt ∧ a.reviewedBy = b.reviewedBy ∧
      a.decisionReason = b.decisionReason ∧ a.supersedes = b.supersedes ∧
      a.supersededBy = b.supersededBy)
    (by cases a; cases b; simp)

/-- `is_expired(at)` where the time is known. -/
def MemoryCandidate.ExpiredAt (candidate : MemoryCandidate) (moment : DateTime) : Prop :=
  ∃ expiry ∈ candidate.expiry, expiry.instant ≤ moment.instant

instance (candidate : MemoryCandidate) (moment : DateTime) : Decidable (candidate.ExpiredAt moment) :=
  inferInstanceAs (Decidable (∃ expiry ∈ candidate.expiry, expiry.instant ≤ moment.instant))

/-- The readings of a clock that does not go back. -/
structure Clock where
  reading : ℕ → DateTime
  mono : ∀ i, (reading i).instant ≤ (reading (i + 1)).instant

/-- The exceptions of the store. -/
inductive MemoryError where
  | notACandidate
  | duplicate (candidateId : String)
  | unknown (candidateId : String)
  | wrongStatus (candidateId : String) (status expected : MemoryStatus)
  | reviewerRequired
  | otherSlotOrScope
  | notNewer
  | conflict (candidateId : String) (conflictingIds : List String)
  | naiveComparison
deriving DecidableEq

/-- The text of an exception, `str(exc)`. -/
def MemoryError.text : MemoryError → String
  | .notACandidate => "new memory must start as a candidate"
  | .duplicate candidateId => "duplicate memory candidate: " ++ candidateId
  | .unknown candidateId => Json.reprStr ("unknown memory candidate: " ++ candidateId)
  | .wrongStatus candidateId status expected =>
      "memory " ++ candidateId ++ " is " ++ status.value ++ ", expected " ++ expected.value
  | .reviewerRequired => "a human reviewer is required"
  | .otherSlotOrScope => "replacement must use the same memory slot and scope"
  | .notNewer => "replacement version must be newer than the current memory"
  | .conflict candidateId conflictingIds =>
      "memory " ++ candidateId ++ " conflicts with approved memory: " ++ ", ".intercalate conflictingIds
  | .naiveComparison => "can't compare offset-naive and offset-aware datetimes"

/-- The lines of the file, each with its candidates, and how often the clock has been read. -/
structure MemoryWorld where
  lines : List (List MemoryCandidate) := []
  readings : ℕ := 0
deriving DecidableEq

/-- A method of the store. -/
abbrev MemoryM := EStateM MemoryError MemoryWorld

/-- The candidates of a file. -/
abbrev Memories := Table MemoryCandidate.candidateId

namespace MemoryStore

/-! ### The methods -/

/-- The candidates that the lines stand for: of each candidate the last one. -/
def loaded (lines : List (List MemoryCandidate)) : Memories :=
  lines.flatten.foldl (fun memories candidate => memories.upsert candidate) .empty

/-- `_load`. -/
def load : MemoryM Memories := do
  let w ← get
  pure (loaded w.lines)

variable (clock : Clock)

/-- `utc_now`. -/
def utcNow : MemoryM DateTime := do
  let w ← get
  modify (fun w => { w with readings := w.readings + 1 })
  pure (clock.reading w.readings)

/-- `_append`; the record carries the time. -/
def append (candidates : List MemoryCandidate) : MemoryM PUnit := do
  let _ ← utcNow clock
  modify (fun w => { w with lines := w.lines ++ [candidates] })

/-- `at or utc_now()`. -/
def momentOr (moment : Option DateTime) : MemoryM DateTime :=
  match moment with
  | some time => pure time
  | none => utcNow clock

/-- `is_expired`; the clock is read where no time is given. -/
def isExpired (candidate : MemoryCandidate) (moment : Option DateTime) : MemoryM Bool :=
  match candidate.expiry with
  | none => pure false
  | some expiry => do
      let time ← momentOr clock moment
      require (moment = none ∨ time.Aware) .naiveComparison
      pure (decide (expiry.instant ≤ time.instant))

/-- `_require`. -/
def requireCandidate (candidateId : String) : MemoryM MemoryCandidate := do
  let memories ← load
  orRaise (memories.lookup candidateId) (.unknown candidateId)

/-- `_require_status`. -/
def requireStatus (candidate : MemoryCandidate) (expected : MemoryStatus) : MemoryM PUnit :=
  require (candidate.status = expected) (.wrongStatus candidate.candidateId candidate.status expected)

/-- `_require_reviewer`. -/
def requireReviewer (reviewer : String) : MemoryM String := do
  require (strip reviewer ≠ "") .reviewerRequired
  pure (strip reviewer)

/-- The comprehension of `_conflicts`, over the candidates that are left. -/
def conflictsAmong (candidate : MemoryCandidate) (excluded : List String) :
    List MemoryCandidate → MemoryM (List String)
  | [] => pure []
  | existing :: rest =>
      if existing.candidateId ∉ excluded ∧ existing.status = .approved then do
        let expired ← isExpired clock existing none
        let others ← conflictsAmong candidate excluded rest
        pure (if expired = false ∧ existing.slot = candidate.slot ∧ existing.scope = candidate.scope then
          existing.candidateId :: others else others)
      else conflictsAmong candidate excluded rest

/-- `_conflicts`. -/
def conflicts (candidate : MemoryCandidate) (excluded : List String) : MemoryM (List String) := do
  let memories ← load
  conflictsAmong clock candidate excluded memories.rows

/-- `propose`. -/
def propose (candidate : MemoryCandidate) : MemoryM MemoryCandidate := do
  require (candidate.status = .candidate) .notACandidate
  let memories ← load
  require (memories.lookup candidate.candidateId = none) (.duplicate candidate.candidateId)
  append clock [candidate]
  pure candidate

/-- `approve`. -/
def approve (candidateId reviewer reason : String) : MemoryM MemoryCandidate := do
  let candidate ← requireCandidate candidateId
  requireStatus candidate .candidate
  let reviewer ← requireReviewer reviewer
  let conflicting ← conflicts clock candidate []
  require (conflicting = []) (.conflict candidateId conflicting)
  let now ← utcNow clock
  let approved := { candidate with
    status := .approved, reviewedBy := some reviewer, decisionReason := reason, updatedAt := now }
  append clock [approved]
  pure approved

/-- What `reject` and `revoke` do: a candidate with the status `expected` gets the status `decided`. -/
def decideOn (expected decided : MemoryStatus) (candidateId reviewer reason : String) :
    MemoryM MemoryCandidate := do
  let candidate ← requireCandidate candidateId
  requireStatus candidate expected
  let reviewer ← requireReviewer reviewer
  let now ← utcNow clock
  let result := { candidate with
    status := decided, reviewedBy := some reviewer, decisionReason := reason, updatedAt := now }
  append clock [result]
  pure result

/-- `reject`. -/
def reject : String → String → String → MemoryM MemoryCandidate := decideOn clock .candidate .rejected

/-- `revoke`. -/
def revoke : String → String → String → MemoryM MemoryCandidate := decideOn clock .approved .revoked

/-- `supersede`. -/
def supersede (currentId replacementId reviewer reason : String) : MemoryM MemoryCandidate := do
  let current ← requireCandidate currentId
  let replacement ← requireCandidate replacementId
  requireStatus current .approved
  requireStatus replacement .candidate
  let reviewer ← requireReviewer reviewer
  require ((current.slot, current.scope) = (replacement.slot, replacement.scope)) .otherSlotOrScope
  require (¬ replacement.version ≤ current.version) .notNewer
  let conflicting ← conflicts clock replacement [currentId]
  require (conflicting = []) (.conflict replacementId conflicting)
  let now ← utcNow clock
  let superseded := { current with
    status := .superseded, reviewedBy := some reviewer, decisionReason := reason,
    supersededBy := some replacementId, updatedAt := now }
  let promoted := { replacement with
    status := .approved, reviewedBy := some reviewer, decisionReason := reason,
    supersedes := some currentId, updatedAt := now }
  append clock [superseded, promoted]
  pure promoted

/-- `get`. -/
def getMemory (candidateId : String) (moment : Option DateTime) : MemoryM MemoryCandidate := do
  let candidate ← requireCandidate candidateId
  if candidate.status = .approved then do
    let expired ← isExpired clock candidate moment
    pure (if expired then { candidate with status := .expired } else candidate)
  else pure candidate

/-- The comprehension of `recall`, over the candidates that are left. -/
def recallAmong (scope : String) (slot : Option MemorySlot) (moment : Option DateTime) :
    List MemoryCandidate → MemoryM (List MemoryCandidate)
  | [] => pure []
  | candidate :: rest =>
      if candidate.status = .approved then do
        let expired ← isExpired clock candidate moment
        let others ← recallAmong scope slot moment rest
        pure (if expired = false ∧ (candidate.scope = scope ∨ candidate.scope = "*") ∧
          (slot = none ∨ slot = some candidate.slot) then candidate :: others else others)
      else recallAmong scope slot moment rest

/-- The order of `recall`: by time of creation, then by identifier. -/
def Recalled (a b : MemoryCandidate) : Prop :=
  a.createdAt.instant < b.createdAt.instant ∨
    a.createdAt.instant = b.createdAt.instant ∧ a.candidateId ≤ b.candidateId

instance : DecidableRel Recalled := fun _ _ => inferInstanceAs (Decidable (_ ∨ _))

/-- `recall`. -/
def recallMemories (scope : String) (slot : Option MemorySlot) (moment : Option DateTime) :
    MemoryM (List MemoryCandidate) := do
  let memories ← load
  let recalled ← recallAmong clock scope slot moment memories.rows
  pure (recalled.insertionSort Recalled)

end MemoryStore

/-- A call of the store. -/
inductive MemoryCall where
  | propose (candidate : MemoryCandidate)
  | approve (candidateId reviewer reason : String)
  | reject (candidateId reviewer reason : String)
  | revoke (candidateId reviewer reason : String)
  | supersede (currentId replacementId reviewer reason : String)
  | getMemory (candidateId : String) (moment : Option DateTime)
  | recallMemories (scope : String) (slot : Option MemorySlot) (moment : Option DateTime)
deriving DecidableEq

/-- The method of the call; what it returns is dropped. -/
def MemoryCall.run (clock : Clock) : MemoryCall → MemoryM PUnit
  | propose candidate => discard (MemoryStore.propose clock candidate)
  | approve candidateId reviewer reason => discard (MemoryStore.approve clock candidateId reviewer reason)
  | reject candidateId reviewer reason => discard (MemoryStore.reject clock candidateId reviewer reason)
  | revoke candidateId reviewer reason => discard (MemoryStore.revoke clock candidateId reviewer reason)
  | supersede currentId replacementId reviewer reason =>
      discard (MemoryStore.supersede clock currentId replacementId reviewer reason)
  | getMemory candidateId moment => discard (MemoryStore.getMemory clock candidateId moment)
  | recallMemories scope slot moment => discard (MemoryStore.recallMemories clock scope slot moment)

/-! ### What a method does -/

/-- The candidate has expired before the reading `bound` of the clock. -/
def MemoryCandidate.ExpiredBefore (candidate : MemoryCandidate) (clock : Clock) (bound : ℕ) : Prop :=
  ∃ i < bound, candidate.ExpiredAt (clock.reading i)

theorem MemoryCandidate.ExpiredBefore.mono {candidate : MemoryCandidate} {clock : Clock} {m n : ℕ}
    (h : candidate.ExpiredBefore clock m) (hmn : m ≤ n) : candidate.ExpiredBefore clock n := by
  obtain ⟨i, hi, hexpired⟩ := h
  exact ⟨i, lt_of_lt_of_le hi hmn, hexpired⟩

/-- What the call does to the candidates where it does not raise; `bound` readings of the clock have been
made by then. -/
inductive MemoryStep (clock : Clock) (bound : ℕ) (memories : Memories) : MemoryCall → Memories → Prop
  | propose {candidate : MemoryCandidate} (hstatus : candidate.status = .candidate)
      (hnew : memories.lookup candidate.candidateId = none) :
      MemoryStep clock bound memories (.propose candidate) (memories.upsert candidate)
  | approve {candidateId reviewer reason : String} {candidate : MemoryCandidate} {now : DateTime}
      (hfound : memories.lookup candidateId = some candidate) (hstatus : candidate.status = .candidate)
      (hconflicts : ∀ existing ∈ memories.rows, existing.status = .approved →
        existing.slot = candidate.slot → existing.scope = candidate.scope →
          existing.ExpiredBefore clock bound) :
      MemoryStep clock bound memories (.approve candidateId reviewer reason) (memories.upsert
        { candidate with
          status := .approved, reviewedBy := some (strip reviewer), decisionReason := reason,
          updatedAt := now })
  | reject {candidateId reviewer reason : String} {candidate : MemoryCandidate} {now : DateTime}
      (hfound : memories.lookup candidateId = some candidate) (hstatus : candidate.status = .candidate) :
      MemoryStep clock bound memories (.reject candidateId reviewer reason) (memories.upsert
        { candidate with
          status := .rejected, reviewedBy := some (strip reviewer), decisionReason := reason,
          updatedAt := now })
  | revoke {candidateId reviewer reason : String} {candidate : MemoryCandidate} {now : DateTime}
      (hfound : memories.lookup candidateId = some candidate) (hstatus : candidate.status = .approved) :
      MemoryStep clock bound memories (.revoke candidateId reviewer reason) (memories.upsert
        { candidate with
          status := .revoked, reviewedBy := some (strip reviewer), decisionReason := reason,
          updatedAt := now })
  | supersede {currentId replacementId reviewer reason : String} {current replacement : MemoryCandidate}
      {now : DateTime} (hcurrent : memories.lookup currentId = some current)
      (hreplacement : memories.lookup replacementId = some replacement)
      (happroved : current.status = .approved) (hcandidate : replacement.status = .candidate)
      (hslot : current.slot = replacement.slot) (hscope : current.scope = replacement.scope)
      (hnewer : current.version < replacement.version)
      (hconflicts : ∀ existing ∈ memories.rows, existing.candidateId ≠ currentId →
        existing.status = .approved → existing.slot = replacement.slot →
          existing.scope = replacement.scope → existing.ExpiredBefore clock bound) :
      MemoryStep clock bound memories (.supersede currentId replacementId reviewer reason)
        ((memories.upsert { current with
          status := .superseded, reviewedBy := some (strip reviewer), decisionReason := reason,
          supersededBy := some replacementId, updatedAt := now }).upsert { replacement with
            status := .approved, reviewedBy := some (strip reviewer), decisionReason := reason,
            supersedes := some currentId, updatedAt := now })
  | getMemory (candidateId : String) (moment : Option DateTime) :
      MemoryStep clock bound memories (.getMemory candidateId moment) memories
  | recallMemories (scope : String) (slot : Option MemorySlot) (moment : Option DateTime) :
      MemoryStep clock bound memories (.recallMemories scope slot moment) memories

namespace MemoryStore

variable {clock : Clock} {w w' : MemoryWorld}

theorem loaded_append (lines : List (List MemoryCandidate)) (candidates : List MemoryCandidate) :
    loaded (lines ++ [candidates]) =
      candidates.foldl (fun memories candidate => memories.upsert candidate) (loaded lines) := by
  unfold loaded
  rw [List.flatten_append, List.foldl_append, List.flatten_singleton]

theorem load_ok {memories : Memories} : load w = .ok memories w' ↔ loaded w.lines = memories ∧ w = w' := by
  constructor
  · intro h
    cases h
    exact ⟨rfl, rfl⟩
  · rintro ⟨rfl, rfl⟩
    rfl

theorem requireCandidate_ok {candidateId : String} {candidate : MemoryCandidate} :
    requireCandidate candidateId w = .ok candidate w' ↔
      (loaded w.lines).lookup candidateId = some candidate ∧ w = w' :=
  orRaise_ok

theorem requireStatus_ok {candidate : MemoryCandidate} {expected : MemoryStatus} {u : PUnit} :
    requireStatus candidate expected w = .ok u w' ↔ candidate.status = expected ∧ w = w' :=
  require_ok

theorem requireReviewer_ok {reviewer r : String} (h : requireReviewer reviewer w = .ok r w') :
    r = strip reviewer ∧ w = w' := by
  obtain ⟨_, _, hcheck, hpure⟩ := estate_bind_ok.mp h
  obtain ⟨_, rfl⟩ := require_ok.mp hcheck
  cases hpure
  exact ⟨rfl, rfl⟩

theorem append_ok {candidates : List MemoryCandidate} {u : PUnit} (h : append clock candidates w = .ok u w') :
    w' = ⟨w.lines ++ [candidates], w.readings + 1⟩ := by
  cases h
  rfl

theorem utcNow_ok {now : DateTime} (h : utcNow clock w = .ok now w') :
    now = clock.reading w.readings ∧ w' = { w with readings := w.readings + 1 } := by
  cases h
  exact ⟨rfl, rfl⟩

/-- A check of the expiry leaves the file alone.  Without a time it reads the clock, if there is an
expiry. -/
theorem isExpired_ok {candidate : MemoryCandidate} {moment : Option DateTime} {expired : Bool}
    (h : isExpired clock candidate moment w = .ok expired w') :
    w'.lines = w.lines ∧ w.readings ≤ w'.readings ∧
      (∀ time, moment = some time → (expired = true ↔ candidate.ExpiredAt time)) ∧
      (moment = none → (expired = true → candidate.ExpiredBefore clock w'.readings) ∧
        (expired = false → candidate.expiry = none ∨
          w.readings < w'.readings ∧ ¬ candidate.ExpiredAt (clock.reading w.readings))) := by
  unfold isExpired at h
  cases hexpiry : candidate.expiry with
  | none =>
      rw [hexpiry] at h
      cases h
      refine ⟨rfl, le_rfl, ?_, ?_⟩
      · intro time _
        simp [MemoryCandidate.ExpiredAt, hexpiry]
      · intro _
        exact ⟨by simp, fun _ => .inl rfl⟩
  | some expiry =>
      rw [hexpiry] at h
      obtain ⟨time, w₁, htime, h₁⟩ := estate_bind_ok.mp h
      obtain ⟨_, _, hcheck, h₂⟩ := estate_bind_ok.mp h₁
      obtain ⟨_, rfl⟩ := require_ok.mp hcheck
      cases h₂
      have hat : ∀ t : DateTime, candidate.ExpiredAt t ↔ expiry.instant ≤ t.instant := by
        intro t
        simp [MemoryCandidate.ExpiredAt, hexpiry]
      cases moment with
      | some given =>
          cases htime
          refine ⟨rfl, le_rfl, ?_, ?_⟩
          · intro t ht
            obtain rfl := Option.some.inj ht
            rw [hat, decide_eq_true_iff]
          · intro hnone
            cases hnone
      | none =>
          obtain ⟨rfl, rfl⟩ := utcNow_ok htime
          refine ⟨rfl, Nat.le_succ _, ?_, ?_⟩
          · intro t ht
            cases ht
          · intro _
            constructor
            · intro hexpired
              exact ⟨w.readings, Nat.lt_succ_self _, (hat _).mpr (decide_eq_true_iff.mp hexpired)⟩
            · intro halive
              refine .inr ⟨Nat.lt_succ_self _, ?_⟩
              rw [hat]
              exact decide_eq_false_iff_not.mp halive

/-- The conflicts leave out only what has another slot or scope, is excluded, or has expired. -/
theorem conflictsAmong_ok {candidate : MemoryCandidate} {excluded ids : List String}
    {among : List MemoryCandidate} (h : conflictsAmong clock candidate excluded among w = .ok ids w') :
    w'.lines = w.lines ∧ w.readings ≤ w'.readings ∧ ∀ existing ∈ among,
      existing.candidateId ∉ excluded → existing.status = .approved → existing.slot = candidate.slot →
        existing.scope = candidate.scope →
          existing.candidateId ∈ ids ∨ existing.ExpiredBefore clock w'.readings := by
  induction among generalizing w ids with
  | nil =>
      cases h
      refine ⟨rfl, le_rfl, ?_⟩
      intro existing hmem
      cases hmem
  | cons first rest ih =>
      unfold conflictsAmong at h
      by_cases hchecked : first.candidateId ∉ excluded ∧ first.status = .approved
      · rw [if_pos hchecked] at h
        obtain ⟨expired, w₁, hexpired, h₁⟩ := estate_bind_ok.mp h
        obtain ⟨others, w₂, hothers, h₂⟩ := estate_bind_ok.mp h₁
        cases h₂
        obtain ⟨hlines, hreadings, _, hclock⟩ := isExpired_ok hexpired
        obtain ⟨hlines', hreadings', hall⟩ := ih hothers
        refine ⟨hlines'.trans hlines, hreadings.trans hreadings', ?_⟩
        intro existing hmem hincluded happroved hslot hscope
        rcases List.mem_cons.mp hmem with rfl | hmem
        · cases hresult : expired with
          | true => exact .inr (((hclock rfl).1 hresult).mono hreadings')
          | false =>
              rw [if_pos ⟨rfl, hslot, hscope⟩]
              exact .inl List.mem_cons_self
        · refine (hall existing hmem hincluded happroved hslot hscope).imp ?_ id
          intro hin
          split
          · exact List.mem_cons_of_mem _ hin
          · exact hin
      · rw [if_neg hchecked] at h
        obtain ⟨hlines, hreadings, hall⟩ := ih h
        refine ⟨hlines, hreadings, ?_⟩
        intro existing hmem hincluded happroved
        rcases List.mem_cons.mp hmem with rfl | hmem
        · exact absurd ⟨hincluded, happroved⟩ hchecked
        · exact hall existing hmem hincluded happroved

/-- Without conflicts, what could conflict has expired. -/
theorem conflicts_ok {candidate : MemoryCandidate} {excluded : List String}
    (h : conflicts clock candidate excluded w = .ok [] w') :
    w'.lines = w.lines ∧ w.readings ≤ w'.readings ∧ ∀ existing ∈ (loaded w.lines).rows,
      existing.candidateId ∉ excluded → existing.status = .approved → existing.slot = candidate.slot →
        existing.scope = candidate.scope → existing.ExpiredBefore clock w'.readings := by
  obtain ⟨memories, _, hload, h₁⟩ := estate_bind_ok.mp h
  obtain ⟨rfl, rfl⟩ := load_ok.mp hload
  obtain ⟨hlines, hreadings, hall⟩ := conflictsAmong_ok h₁
  refine ⟨hlines, hreadings, ?_⟩
  intro existing hmem hincluded happroved hslot hscope
  rcases hall existing hmem hincluded happroved hslot hscope with hin | hexpired
  · cases hin
  · exact hexpired

theorem propose_step {candidate r : MemoryCandidate} (h : propose clock candidate w = .ok r w') :
    MemoryStep clock w'.readings (loaded w.lines) (.propose candidate) (loaded w'.lines) := by
  obtain ⟨_, _, hcheck, h₁⟩ := estate_bind_ok.mp h
  obtain ⟨hstatus, rfl⟩ := require_ok.mp hcheck
  obtain ⟨memories, _, hload, h₂⟩ := estate_bind_ok.mp h₁
  obtain ⟨rfl, rfl⟩ := load_ok.mp hload
  obtain ⟨_, _, hcheck, h₃⟩ := estate_bind_ok.mp h₂
  obtain ⟨hnew, rfl⟩ := require_ok.mp hcheck
  obtain ⟨_, _, happend, h₄⟩ := estate_bind_ok.mp h₃
  obtain rfl := append_ok happend
  cases h₄
  rw [loaded_append]
  exact .propose hstatus hnew

theorem approve_step {candidateId reviewer reason : String} {r : MemoryCandidate}
    (h : approve clock candidateId reviewer reason w = .ok r w') :
    MemoryStep clock w'.readings (loaded w.lines) (.approve candidateId reviewer reason)
      (loaded w'.lines) := by
  obtain ⟨candidate, _, hrequire, h₁⟩ := estate_bind_ok.mp h
  obtain ⟨hfound, rfl⟩ := requireCandidate_ok.mp hrequire
  obtain ⟨_, _, hcheck, h₂⟩ := estate_bind_ok.mp h₁
  obtain ⟨hstatus, rfl⟩ := requireStatus_ok.mp hcheck
  obtain ⟨_, _, hreviewer, h₃⟩ := estate_bind_ok.mp h₂
  obtain ⟨rfl, rfl⟩ := requireReviewer_ok hreviewer
  obtain ⟨_, _, hsearch, h₄⟩ := estate_bind_ok.mp h₃
  obtain ⟨_, _, hcheck, h₅⟩ := estate_bind_ok.mp h₄
  obtain ⟨rfl, rfl⟩ := require_ok.mp hcheck
  obtain ⟨hlines, hreadings, hconflicts⟩ := conflicts_ok hsearch
  obtain ⟨now, _, hnow, h₆⟩ := estate_bind_ok.mp h₅
  obtain ⟨rfl, rfl⟩ := utcNow_ok hnow
  obtain ⟨_, _, happend, h₇⟩ := estate_bind_ok.mp h₆
  obtain rfl := append_ok happend
  cases h₇
  rw [loaded_append, hlines]
  refine .approve hfound hstatus ?_
  intro existing hmem happroved hslot hscope
  exact (hconflicts existing hmem List.not_mem_nil happroved hslot hscope).mono
    (Nat.le_add_right _ 2)

/-- What `reject` and `revoke` leave behind. -/
theorem decideOn_ok {expected decided : MemoryStatus} {candidateId reviewer reason : String}
    {r : MemoryCandidate} (h : decideOn clock expected decided candidateId reviewer reason w = .ok r w') :
    ∃ candidate now, (loaded w.lines).lookup candidateId = some candidate ∧ candidate.status = expected ∧
      loaded w'.lines = (loaded w.lines).upsert { candidate with
        status := decided, reviewedBy := some (strip reviewer), decisionReason := reason,
        updatedAt := now } := by
  obtain ⟨candidate, _, hrequire, h₁⟩ := estate_bind_ok.mp h
  obtain ⟨hfound, rfl⟩ := requireCandidate_ok.mp hrequire
  obtain ⟨_, _, hcheck, h₂⟩ := estate_bind_ok.mp h₁
  obtain ⟨hstatus, rfl⟩ := requireStatus_ok.mp hcheck
  obtain ⟨_, _, hreviewer, h₃⟩ := estate_bind_ok.mp h₂
  obtain ⟨rfl, rfl⟩ := requireReviewer_ok hreviewer
  obtain ⟨now, _, hnow, h₄⟩ := estate_bind_ok.mp h₃
  obtain ⟨rfl, rfl⟩ := utcNow_ok hnow
  obtain ⟨_, _, happend, h₅⟩ := estate_bind_ok.mp h₄
  obtain rfl := append_ok happend
  cases h₅
  exact ⟨candidate, _, hfound, hstatus, loaded_append _ _⟩

theorem supersede_step {currentId replacementId reviewer reason : String} {r : MemoryCandidate}
    (h : supersede clock currentId replacementId reviewer reason w = .ok r w') :
    MemoryStep clock w'.readings (loaded w.lines) (.supersede currentId replacementId reviewer reason)
      (loaded w'.lines) := by
  obtain ⟨current, _, hrequire, h₁⟩ := estate_bind_ok.mp h
  obtain ⟨hcurrent, rfl⟩ := requireCandidate_ok.mp hrequire
  obtain ⟨replacement, _, hrequire, h₂⟩ := estate_bind_ok.mp h₁
  obtain ⟨hreplacement, rfl⟩ := requireCandidate_ok.mp hrequire
  obtain ⟨_, _, hcheck, h₃⟩ := estate_bind_ok.mp h₂
  obtain ⟨happroved, rfl⟩ := requireStatus_ok.mp hcheck
  obtain ⟨_, _, hcheck, h₄⟩ := estate_bind_ok.mp h₃
  obtain ⟨hcandidate, rfl⟩ := requireStatus_ok.mp hcheck
  obtain ⟨_, _, hreviewer, h₅⟩ := estate_bind_ok.mp h₄
  obtain ⟨rfl, rfl⟩ := requireReviewer_ok hreviewer
  obtain ⟨_, _, hcheck, h₆⟩ := estate_bind_ok.mp h₅
  obtain ⟨hpair, rfl⟩ := require_ok.mp hcheck
  obtain ⟨hslot, hscope⟩ := Prod.mk.inj hpair
  obtain ⟨_, _, hcheck, h₇⟩ := estate_bind_ok.mp h₆
  obtain ⟨hnewer, rfl⟩ := require_ok.mp hcheck
  obtain ⟨_, _, hsearch, h₈⟩ := estate_bind_ok.mp h₇
  obtain ⟨_, _, hcheck, h₉⟩ := estate_bind_ok.mp h₈
  obtain ⟨rfl, rfl⟩ := require_ok.mp hcheck
  obtain ⟨hlines, hreadings, hconflicts⟩ := conflicts_ok hsearch
  obtain ⟨now, _, hnow, h₁₀⟩ := estate_bind_ok.mp h₉
  obtain ⟨rfl, rfl⟩ := utcNow_ok hnow
  obtain ⟨_, _, happend, h₁₁⟩ := estate_bind_ok.mp h₁₀
  obtain rfl := append_ok happend
  cases h₁₁
  rw [loaded_append, hlines]
  refine .supersede hcurrent hreplacement happroved hcandidate hslot hscope (not_le.mp hnewer) ?_
  intro existing hmem hother hstatus hslot' hscope'
  refine (hconflicts existing hmem ?_ hstatus hslot' hscope').mono (Nat.le_add_right _ 2)
  rw [List.mem_singleton]
  exact hother

/-! ### What a method leaves alone -/

theorem keeps_load {γ : Type*} (f : MemoryWorld → γ) : Keeps f load :=
  keeps_get.bind (fun _ => keeps_pure _)

theorem neverRaises_utcNow : NeverRaises (utcNow clock) := by
  intro w e w' h
  cases h

theorem keeps_utcNow : Keeps (·.lines) (utcNow clock) := fun _ => rfl

theorem keeps_momentOr (moment : Option DateTime) : Keeps (·.lines) (momentOr clock moment) := by
  cases moment with
  | none => exact keeps_utcNow
  | some time => exact keeps_pure time

theorem keeps_isExpired (candidate : MemoryCandidate) (moment : Option DateTime) :
    Keeps (·.lines) (isExpired clock candidate moment) := by
  unfold isExpired
  cases candidate.expiry with
  | none => exact keeps_pure false
  | some expiry =>
      exact (keeps_momentOr moment).bind fun time => (keeps_require _).bind fun _ => keeps_pure _

theorem keeps_requireCandidate {γ : Type*} (f : MemoryWorld → γ) (candidateId : String) :
    Keeps f (requireCandidate candidateId) :=
  (keeps_load f).bind fun _ => keeps_orRaise _

theorem keeps_requireReviewer {γ : Type*} (f : MemoryWorld → γ) (reviewer : String) :
    Keeps f (requireReviewer reviewer) :=
  (keeps_require _).bind fun _ => keeps_pure _

theorem keeps_conflictsAmong (candidate : MemoryCandidate) (excluded : List String)
    (among : List MemoryCandidate) :
    Keeps (·.lines) (conflictsAmong clock candidate excluded among) := by
  induction among with
  | nil => exact keeps_pure []
  | cons existing rest ih =>
      unfold conflictsAmong
      split
      · exact (keeps_isExpired existing none).bind fun _ => ih.bind fun _ => keeps_pure _
      · exact ih

theorem keeps_conflicts (candidate : MemoryCandidate) (excluded : List String) :
    Keeps (·.lines) (conflicts clock candidate excluded) :=
  (keeps_load _).bind fun memories => keeps_conflictsAmong candidate excluded memories.rows

theorem keeps_recallAmong (scope : String) (slot : Option MemorySlot) (moment : Option DateTime)
    (among : List MemoryCandidate) : Keeps (·.lines) (recallAmong clock scope slot moment among) := by
  induction among with
  | nil => exact keeps_pure []
  | cons candidate rest ih =>
      unfold recallAmong
      split
      · exact (keeps_isExpired candidate moment).bind fun _ => ih.bind fun _ => keeps_pure _
      · exact ih

theorem keeps_getMemory (candidateId : String) (moment : Option DateTime) :
    Keeps (·.lines) (getMemory clock candidateId moment) := by
  refine (keeps_requireCandidate _ candidateId).bind fun candidate => ?_
  split
  · exact (keeps_isExpired candidate moment).bind fun _ => keeps_pure _
  · exact keeps_pure candidate

theorem keeps_recallMemories (scope : String) (slot : Option MemorySlot) (moment : Option DateTime) :
    Keeps (·.lines) (recallMemories clock scope slot moment) :=
  (keeps_load _).bind fun memories =>
    (keeps_recallAmong scope slot moment memories.rows).bind fun _ => keeps_pure _

theorem neverRaises_append (candidates : List MemoryCandidate) : NeverRaises (append clock candidates) :=
  neverRaises_utcNow.bind fun _ => neverRaises_modify _

/-- The last part of every method that writes: a record is appended, and the result returned. -/
theorem raisesClean_record {α : Type} (candidates : List MemoryCandidate) (result : α) :
    RaisesClean (·.lines) (append clock candidates >>= fun _ => pure result) :=
  ((neverRaises_append candidates).bind fun _ => neverRaises_pure result).raisesClean

theorem raisesClean_propose (candidate : MemoryCandidate) :
    RaisesClean (·.lines) (propose clock candidate) :=
  .bind (keeps_require _) fun _ => .bind (keeps_load _) fun _ => .bind (keeps_require _) fun _ =>
    raisesClean_record _ _

theorem raisesClean_approve (candidateId reviewer reason : String) :
    RaisesClean (·.lines) (approve clock candidateId reviewer reason) :=
  .bind (keeps_requireCandidate _ candidateId) fun candidate => .bind (keeps_require _) fun _ =>
    .bind (keeps_requireReviewer _ reviewer) fun _ => .bind (keeps_conflicts candidate []) fun _ =>
      .bind (keeps_require _) fun _ => .bind keeps_utcNow fun _ => raisesClean_record _ _

theorem raisesClean_decideOn (expected decided : MemoryStatus) (candidateId reviewer reason : String) :
    RaisesClean (·.lines) (decideOn clock expected decided candidateId reviewer reason) :=
  .bind (keeps_requireCandidate _ candidateId) fun _ => .bind (keeps_require _) fun _ =>
    .bind (keeps_requireReviewer _ reviewer) fun _ => .bind keeps_utcNow fun _ => raisesClean_record _ _

theorem raisesClean_supersede (currentId replacementId reviewer reason : String) :
    RaisesClean (·.lines) (supersede clock currentId replacementId reviewer reason) :=
  .bind (keeps_requireCandidate _ currentId) fun _ => .bind (keeps_requireCandidate _ replacementId)
    fun replacement => .bind (keeps_require _) fun _ => .bind (keeps_require _) fun _ =>
      .bind (keeps_requireReviewer _ reviewer) fun _ => .bind (keeps_require _) fun _ =>
        .bind (keeps_require _) fun _ => .bind (keeps_conflicts replacement [currentId]) fun _ =>
          .bind (keeps_require _) fun _ => .bind keeps_utcNow fun _ => raisesClean_record _ _

/-! ### The readings of the clock -/

theorem grows_utcNow : Grows (·.readings) (utcNow clock) := fun w => Nat.le_succ w.readings

theorem grows_append (candidates : List MemoryCandidate) : Grows (·.readings) (append clock candidates) :=
  grows_utcNow.bind fun _ _ => le_rfl

/-- The last part of every method that writes. -/
theorem grows_record {α : Type} (candidates : List MemoryCandidate) (result : α) :
    Grows (·.readings) (append clock candidates >>= fun _ => pure result) :=
  (grows_append candidates).bind fun _ => (keeps_pure result).grows

theorem grows_isExpired (candidate : MemoryCandidate) (moment : Option DateTime) :
    Grows (·.readings) (isExpired clock candidate moment) := by
  unfold isExpired
  cases candidate.expiry with
  | none => exact (keeps_pure false).grows
  | some expiry =>
      refine Grows.bind ?_ fun time => (keeps_require _).grows.bind fun _ => (keeps_pure _).grows
      cases moment with
      | none => exact grows_utcNow
      | some time => exact (keeps_pure time).grows

theorem grows_conflictsAmong (candidate : MemoryCandidate) (excluded : List String)
    (among : List MemoryCandidate) :
    Grows (·.readings) (conflictsAmong clock candidate excluded among) := by
  induction among with
  | nil => exact (keeps_pure []).grows
  | cons existing rest ih =>
      unfold conflictsAmong
      split
      · exact (grows_isExpired existing none).bind fun _ => ih.bind fun _ => (keeps_pure _).grows
      · exact ih

theorem grows_conflicts (candidate : MemoryCandidate) (excluded : List String) :
    Grows (·.readings) (conflicts clock candidate excluded) :=
  (keeps_load _).grows.bind fun memories => grows_conflictsAmong candidate excluded memories.rows

theorem grows_recallAmong (scope : String) (slot : Option MemorySlot) (moment : Option DateTime)
    (among : List MemoryCandidate) : Grows (·.readings) (recallAmong clock scope slot moment among) := by
  induction among with
  | nil => exact (keeps_pure []).grows
  | cons candidate rest ih =>
      unfold recallAmong
      split
      · exact (grows_isExpired candidate moment).bind fun _ => ih.bind fun _ => (keeps_pure _).grows
      · exact ih

theorem grows_propose (candidate : MemoryCandidate) : Grows (·.readings) (propose clock candidate) :=
  (keeps_require _).grows.bind fun _ => (keeps_load _).grows.bind fun _ => (keeps_require _).grows.bind
    fun _ => grows_record _ _

theorem grows_approve (candidateId reviewer reason : String) :
    Grows (·.readings) (approve clock candidateId reviewer reason) :=
  (keeps_requireCandidate _ candidateId).grows.bind fun candidate => (keeps_require _).grows.bind fun _ =>
    (keeps_requireReviewer _ reviewer).grows.bind fun _ => (grows_conflicts candidate []).bind fun _ =>
      (keeps_require _).grows.bind fun _ => grows_utcNow.bind fun _ => grows_record _ _

theorem grows_decideOn (expected decided : MemoryStatus) (candidateId reviewer reason : String) :
    Grows (·.readings) (decideOn clock expected decided candidateId reviewer reason) :=
  (keeps_requireCandidate _ candidateId).grows.bind fun _ => (keeps_require _).grows.bind fun _ =>
    (keeps_requireReviewer _ reviewer).grows.bind fun _ => grows_utcNow.bind fun _ => grows_record _ _

theorem grows_supersede (currentId replacementId reviewer reason : String) :
    Grows (·.readings) (supersede clock currentId replacementId reviewer reason) :=
  (keeps_requireCandidate _ currentId).grows.bind fun _ =>
    (keeps_requireCandidate _ replacementId).grows.bind fun replacement =>
      (keeps_require _).grows.bind fun _ => (keeps_require _).grows.bind fun _ =>
        (keeps_requireReviewer _ reviewer).grows.bind fun _ => (keeps_require _).grows.bind fun _ =>
          (keeps_require _).grows.bind fun _ => (grows_conflicts replacement [currentId]).bind fun _ =>
            (keeps_require _).grows.bind fun _ => grows_utcNow.bind fun _ => grows_record _ _

theorem grows_getMemory (candidateId : String) (moment : Option DateTime) :
    Grows (·.readings) (getMemory clock candidateId moment) := by
  refine (keeps_requireCandidate _ candidateId).grows.bind fun candidate => ?_
  split
  · exact (grows_isExpired candidate moment).bind fun _ => (keeps_pure _).grows
  · exact (keeps_pure candidate).grows

theorem grows_recallMemories (scope : String) (slot : Option MemorySlot) (moment : Option DateTime) :
    Grows (·.readings) (recallMemories clock scope slot moment) :=
  (keeps_load _).grows.bind fun memories =>
    (grows_recallAmong scope slot moment memories.rows).bind fun _ => (keeps_pure _).grows

end MemoryStore

namespace MemoryCall

variable {clock : Clock} {call : MemoryCall} {w w' : MemoryWorld}

/-- A call that returns has taken its step. -/
theorem run_step {u : PUnit} (h : call.run clock w = .ok u w') :
    MemoryStep clock w'.readings (MemoryStore.loaded w.lines) call (MemoryStore.loaded w'.lines) := by
  cases call with
  | propose candidate =>
      obtain ⟨_, hrun⟩ := estate_discard_ok.mp h
      exact MemoryStore.propose_step hrun
  | approve candidateId reviewer reason =>
      obtain ⟨_, hrun⟩ := estate_discard_ok.mp h
      exact MemoryStore.approve_step hrun
  | reject candidateId reviewer reason =>
      obtain ⟨_, hrun⟩ := estate_discard_ok.mp h
      obtain ⟨candidate, now, hfound, hstatus, hloaded⟩ := MemoryStore.decideOn_ok hrun
      rw [hloaded]
      exact .reject hfound hstatus
  | revoke candidateId reviewer reason =>
      obtain ⟨_, hrun⟩ := estate_discard_ok.mp h
      obtain ⟨candidate, now, hfound, hstatus, hloaded⟩ := MemoryStore.decideOn_ok hrun
      rw [hloaded]
      exact .revoke hfound hstatus
  | supersede currentId replacementId reviewer reason =>
      obtain ⟨_, hrun⟩ := estate_discard_ok.mp h
      exact MemoryStore.supersede_step hrun
  | getMemory candidateId moment =>
      obtain ⟨_, hrun⟩ := estate_discard_ok.mp h
      rw [(MemoryStore.keeps_getMemory candidateId moment).of_ok hrun]
      exact .getMemory candidateId moment
  | recallMemories scope slot moment =>
      obtain ⟨_, hrun⟩ := estate_discard_ok.mp h
      rw [(MemoryStore.keeps_recallMemories scope slot moment).of_ok hrun]
      exact .recallMemories scope slot moment

/-- A call that raises has written nothing. -/
theorem run_error {e : MemoryError} (h : call.run clock w = .error e w') : w'.lines = w.lines := by
  cases call with
  | propose candidate =>
      exact MemoryStore.raisesClean_propose _ _ _ _ (estate_discard_error.mp h)
  | approve candidateId reviewer reason =>
      exact MemoryStore.raisesClean_approve _ _ _ _ _ _ (estate_discard_error.mp h)
  | reject candidateId reviewer reason =>
      exact MemoryStore.raisesClean_decideOn _ _ _ _ _ _ _ _ (estate_discard_error.mp h)
  | revoke candidateId reviewer reason =>
      exact MemoryStore.raisesClean_decideOn _ _ _ _ _ _ _ _ (estate_discard_error.mp h)
  | supersede currentId replacementId reviewer reason =>
      exact MemoryStore.raisesClean_supersede _ _ _ _ _ _ _ (estate_discard_error.mp h)
  | getMemory candidateId moment =>
      exact (MemoryStore.keeps_getMemory candidateId moment).raisesClean _ _ _ (estate_discard_error.mp h)
  | recallMemories scope slot moment =>
      exact (MemoryStore.keeps_recallMemories scope slot moment).raisesClean _ _ _
        (estate_discard_error.mp h)

/-- No call takes readings of the clock back. -/
theorem grows_run (call : MemoryCall) : Grows (·.readings) (call.run clock) := by
  intro w
  cases call with
  | propose candidate =>
      rw [run, finalState_discard]
      exact MemoryStore.grows_propose candidate w
  | approve candidateId reviewer reason =>
      rw [run, finalState_discard]
      exact MemoryStore.grows_approve candidateId reviewer reason w
  | reject candidateId reviewer reason =>
      rw [run, finalState_discard]
      exact MemoryStore.grows_decideOn _ _ candidateId reviewer reason w
  | revoke candidateId reviewer reason =>
      rw [run, finalState_discard]
      exact MemoryStore.grows_decideOn _ _ candidateId reviewer reason w
  | supersede currentId replacementId reviewer reason =>
      rw [run, finalState_discard]
      exact MemoryStore.grows_supersede currentId replacementId reviewer reason w
  | getMemory candidateId moment =>
      rw [run, finalState_discard]
      exact MemoryStore.grows_getMemory candidateId moment w
  | recallMemories scope slot moment =>
      rw [run, finalState_discard]
      exact MemoryStore.grows_recallMemories scope slot moment w

end MemoryCall

end CrazyHarness
