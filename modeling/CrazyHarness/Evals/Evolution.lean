import CrazyHarness.Lib.DateTime
import CrazyHarness.Lib.Effects
import CrazyHarness.Lib.JsonEquality
import CrazyHarness.Lib.Run
import CrazyHarness.Lib.Table
import CrazyHarness.Lib.Texts

/-! # The release gate

`EvolutionController`: a file of states, of which the last line counts.  Every call reads that line,
checks, and appends the next state.  Of the records the fields that the controller reads or writes are
kept; a reading of the clock is a parameter of the call.

* `EvolutionStep`: what a call that returns does to the state, its checks included; `run_step`.
* `run_error`: a call that raises leaves the file as it was. -/

namespace CrazyHarness

open Lib

/-! ### Records -/

/-- `ChangeTarget`. -/
inductive ChangeTarget where
  | prompt
  | skill
  | policy
  | toolSearch
  | threshold
  | hardPolicy
  | permission
deriving DecidableEq

/-- `DiffOperation`. -/
inductive DiffOperation where
  | add
  | replace
  | remove
deriving DecidableEq

/-- `PermissionEffect`. -/
inductive PermissionEffect where
  | unchanged
  | reduced
  | expanded
deriving DecidableEq

/-- `EvolutionStatus`. -/
inductive EvolutionStatus where
  | candidate
  | offlinePassed
  | shadowPassed
  | approved
  | promoted
  | rejected
  | rolledBack
deriving DecidableEq

/-- `status.value`. -/
def EvolutionStatus.value : EvolutionStatus → String
  | .candidate => "candidate"
  | .offlinePassed => "offline_passed"
  | .shadowPassed => "shadow_passed"
  | .approved => "approved"
  | .promoted => "promoted"
  | .rejected => "rejected"
  | .rolledBack => "rolled_back"

/-- `TypedDiff`; the value it changes to is another one. -/
structure TypedDiff where
  target : ChangeTarget
  path : String
  operation : DiffOperation := .replace
  before : Json := .null
  after : Json := .null
  permissionEffect : PermissionEffect := .unchanged
  path_ne : path ≠ "" := by decide
  changesValue : before.pyEq after = false

/-- The other fields are proofs. -/
instance : DecidableEq TypedDiff := fun a b =>
  decidable_of_iff
    (a.target = b.target ∧ a.path = b.path ∧ a.operation = b.operation ∧ a.before = b.before ∧
      a.after = b.after ∧ a.permissionEffect = b.permissionEffect)
    (by cases a; cases b; simp)

/-- What the gate reads of an `EvalReport`. -/
structure EvalReport where
  baselineVersion : String
  candidateVersion : String
  passed : Bool
deriving DecidableEq

/-- What the gate reads of a `ShadowResult`. -/
structure ShadowResult where
  passed : Bool
  baselineVersion : String
  candidateVersion : String
deriving DecidableEq

/-- `EvolutionCandidate`; it proposes another version than its base. -/
structure EvolutionCandidate where
  candidateId : String
  baseVersion : String
  proposedVersion : String
  diffs : List TypedDiff
  status : EvolutionStatus := .candidate
  offlineReport : Option EvalReport := none
  shadowResult : Option ShadowResult := none
  reviewedBy : Option String := none
  approvalReason : String := ""
  rejectionReason : String := ""
  updatedAt : DateTime
  diffs_ne : diffs ≠ [] := by decide
  proposesANewVersion : proposedVersion ≠ baseVersion := by decide
deriving DecidableEq

/-- `PromotionRecord`. -/
structure PromotionRecord where
  candidateId : String
  previousVersion : String
  version : String
  promotedAt : DateTime
  rolledBackAt : Option DateTime := none
  rollbackReviewer : Option String := none
  rollbackReason : String := ""
deriving DecidableEq

/-- `RollbackResult`. -/
structure RollbackResult where
  candidateId : String
  fromVersion : String
  toVersion : String
  reviewer : String
  reason : String
  rolledBackAt : DateTime
deriving DecidableEq

/-- `_EvolutionState`. -/
structure EvolutionState where
  activeVersion : String
  candidates : Table EvolutionCandidate.candidateId := .empty
  promotions : List PromotionRecord := []
deriving DecidableEq

/-- One line of the file. -/
structure EvolutionLine where
  action : String
  state : EvolutionState
deriving DecidableEq

/-- The exceptions of the controller. -/
inductive EvolutionError where
  | initialVersionRequired
  | emptyLog
  | notACandidate
  | duplicate (candidateId : String)
  | unknown (candidateId : String)
  | wrongStatus (candidateId : String) (status expected : EvolutionStatus)
  | reportVersions
  | shadowVersions
  | reviewerRequired
  | staleBase
  | usedVersion
  | nothingToRollBack
deriving DecidableEq

/-- The text of an exception, `str(exc)`. -/
def EvolutionError.text : EvolutionError → String
  | .initialVersionRequired => "initial_version is required"
  | .emptyLog => "evolution state log is empty"
  | .notACandidate => "new evolution must start as a candidate"
  | .duplicate candidateId => "duplicate evolution candidate: " ++ candidateId
  | .unknown candidateId => Json.reprStr ("unknown evolution candidate: " ++ candidateId)
  | .wrongStatus candidateId status expected =>
      "evolution " ++ candidateId ++ " is " ++ status.value ++ ", expected " ++ expected.value
  | .reportVersions => "eval report versions do not match the evolution candidate"
  | .shadowVersions => "shadow result versions do not match the evolution candidate"
  | .reviewerRequired => "a human reviewer is required"
  | .staleBase => "candidate base is no longer the active version"
  | .usedVersion => "proposed version has already been used"
  | .nothingToRollBack => "active version has no promotion to roll back"

/-- A method of the controller, over the lines of its file. -/
abbrev EvolutionM := EStateM EvolutionError (List EvolutionLine)

namespace EvolutionController

/-! ### The methods -/

/-- `_load`. -/
def load : EvolutionM EvolutionState := do
  let lines ← get
  orRaise (lines.getLast?.map (·.state)) .emptyLog

/-- `_append`. -/
def append (action : String) (state : EvolutionState) : EvolutionM PUnit :=
  modify (· ++ [⟨action, state⟩])

/-- `__init__`; a file that has lines keeps them. -/
def init (initialVersion : String) : EvolutionM PUnit := do
  require (strip initialVersion ≠ "") .initialVersionRequired
  let lines ← get
  if lines = [] then append "initialize" { activeVersion := initialVersion } else pure ⟨⟩

/-- `_state_candidate`. -/
def stateCandidate (state : EvolutionState) (candidateId : String) : EvolutionM EvolutionCandidate :=
  orRaise (state.candidates.lookup candidateId) (.unknown candidateId)

/-- `_require_status`. -/
def requireStatus (candidate : EvolutionCandidate) (expected : EvolutionStatus) : EvolutionM PUnit :=
  require (candidate.status = expected) (.wrongStatus candidate.candidateId candidate.status expected)

/-- `_require_reviewer`. -/
def requireReviewer (reviewer : String) : EvolutionM String := do
  require (strip reviewer ≠ "") .reviewerRequired
  pure (strip reviewer)

/-- `_rejection_reason`. -/
def rejectionReason (candidate : EvolutionCandidate) : String :=
  if candidate.diffs.any (·.target = .hardPolicy) then "hard_policy_changes_are_forbidden"
  else if candidate.diffs.any (·.permissionEffect = .expanded) then "permission_expansion_is_forbidden"
  else if candidate.diffs.any
      (fun diff => diff.target = .permission ∧ diff.permissionEffect ≠ .reduced) then
    "permission_change_must_be_explicitly_reducing"
  else ""

/-- `_save_candidate`. -/
def saveCandidate (action : String) (state : EvolutionState) (candidate : EvolutionCandidate) :
    EvolutionM PUnit :=
  append action { state with candidates := state.candidates.upsert candidate }

/-- The candidate as `submit` stores it. -/
def submitted (candidate : EvolutionCandidate) (activeVersion : String) (now : DateTime) :
    EvolutionCandidate :=
  let reason := if candidate.baseVersion ≠ activeVersion then "stale_base_version:" ++ activeVersion
    else rejectionReason candidate
  if reason ≠ "" then
    { candidate with status := .rejected, rejectionReason := reason, updatedAt := now }
  else candidate

/-- `submit`. -/
def submit (candidate : EvolutionCandidate) (now : DateTime) : EvolutionM EvolutionCandidate := do
  require (candidate.status = .candidate) .notACandidate
  let state ← load
  require (state.candidates.lookup candidate.candidateId = none) (.duplicate candidate.candidateId)
  let stored := submitted candidate state.activeVersion now
  saveCandidate "submit" state stored
  pure stored

/-- `offline_gate`. -/
def offlineGate (candidateId : String) (report : EvalReport) (now : DateTime) :
    EvolutionM EvolutionCandidate := do
  let state ← load
  let candidate ← stateCandidate state candidateId
  requireStatus candidate .candidate
  require ((report.baselineVersion, report.candidateVersion) =
    (candidate.baseVersion, candidate.proposedVersion)) .reportVersions
  let evaluated := { candidate with
    status := if report.passed then .offlinePassed else .rejected
    offlineReport := some report
    rejectionReason := if report.passed then "" else "offline_eval_failed"
    updatedAt := now }
  saveCandidate "offline_gate" state evaluated
  pure evaluated

/-- `record_shadow`. -/
def recordShadow (candidateId : String) (result : ShadowResult) (now : DateTime) :
    EvolutionM EvolutionCandidate := do
  let state ← load
  let candidate ← stateCandidate state candidateId
  requireStatus candidate .offlinePassed
  require ((result.baselineVersion, result.candidateVersion) =
    (candidate.baseVersion, candidate.proposedVersion)) .shadowVersions
  let shadowed := { candidate with
    status := if result.passed then .shadowPassed else .rejected
    shadowResult := some result
    rejectionReason := if result.passed then "" else "shadow_failed"
    updatedAt := now }
  saveCandidate "record_shadow" state shadowed
  pure shadowed

/-- `approve`. -/
def approve (candidateId reviewer reason : String) (now : DateTime) :
    EvolutionM EvolutionCandidate := do
  let state ← load
  let candidate ← stateCandidate state candidateId
  requireStatus candidate .shadowPassed
  let reviewedBy ← requireReviewer reviewer
  let approved := { candidate with
    status := .approved
    reviewedBy := some reviewedBy
    approvalReason := reason
    updatedAt := now }
  saveCandidate "approve" state approved
  pure approved

/-- `promote`. -/
def promote (candidateId : String) (now promotedAt : DateTime) : EvolutionM PromotionRecord := do
  let state ← load
  let candidate ← stateCandidate state candidateId
  requireStatus candidate .approved
  require (state.activeVersion = candidate.baseVersion) .staleBase
  require (¬ ∃ record ∈ state.promotions, record.version = candidate.proposedVersion) .usedVersion
  let promoted := { candidate with status := .promoted, updatedAt := now }
  let promotion : PromotionRecord :=
    { candidateId := candidateId, previousVersion := state.activeVersion,
      version := candidate.proposedVersion, promotedAt := promotedAt }
  append "promote"
    { activeVersion := candidate.proposedVersion
      candidates := state.candidates.upsert promoted
      promotions := state.promotions ++ [promotion] }
  pure promotion

/-- The promotion in force of the active version. -/
def Promotes (activeVersion : String) (record : PromotionRecord) : Prop :=
  record.version = activeVersion ∧ record.rolledBackAt = none

instance (activeVersion : String) : DecidablePred (Promotes activeVersion) :=
  fun _ => inferInstanceAs (Decidable (_ ∧ _))

/-- The last promotion in force of the active version, with its index. -/
def rollbackTarget (state : EvolutionState) : Option (ℕ × PromotionRecord) :=
  (state.promotions.zipIdx.map Prod.swap).reverse.find?
    (fun entry => Promotes state.activeVersion entry.2)

/-- `rollback`. -/
def rollback (reviewer reason : String) (now : DateTime) : EvolutionM RollbackResult := do
  let reviewer ← requireReviewer reviewer
  let state ← load
  let (index, promotion) ← orRaise (rollbackTarget state) .nothingToRollBack
  let rolled := { promotion with
    rolledBackAt := some now, rollbackReviewer := some reviewer, rollbackReason := reason }
  let candidate ← stateCandidate state promotion.candidateId
  requireStatus candidate .promoted
  append "rollback"
    { activeVersion := promotion.previousVersion
      candidates := state.candidates.upsert { candidate with status := .rolledBack, updatedAt := now }
      promotions := state.promotions.set index rolled }
  pure ⟨candidate.candidateId, promotion.version, promotion.previousVersion, reviewer, reason, now⟩

end EvolutionController

/-- A call of the controller. -/
inductive EvolutionCall where
  | init (initialVersion : String)
  | submit (candidate : EvolutionCandidate) (now : DateTime)
  | offlineGate (candidateId : String) (report : EvalReport) (now : DateTime)
  | recordShadow (candidateId : String) (result : ShadowResult) (now : DateTime)
  | approve (candidateId reviewer reason : String) (now : DateTime)
  | promote (candidateId : String) (now promotedAt : DateTime)
  | rollback (reviewer reason : String) (now : DateTime)
deriving DecidableEq

namespace EvolutionCall

open EvolutionController in
/-- The method of the call; what it returns is dropped. -/
def run : EvolutionCall → EvolutionM PUnit
  | init initialVersion => EvolutionController.init initialVersion
  | submit candidate now => discard (EvolutionController.submit candidate now)
  | offlineGate candidateId report now => discard (EvolutionController.offlineGate candidateId report now)
  | recordShadow candidateId result now =>
      discard (EvolutionController.recordShadow candidateId result now)
  | approve candidateId reviewer reason now =>
      discard (EvolutionController.approve candidateId reviewer reason now)
  | promote candidateId now promotedAt =>
      discard (EvolutionController.promote candidateId now promotedAt)
  | rollback reviewer reason now => discard (EvolutionController.rollback reviewer reason now)

end EvolutionCall

namespace EvolutionController

/-! ### What a method does -/

/-- The state that the lines stand for. -/
def current (lines : List EvolutionLine) : Option EvolutionState := lines.getLast?.map (·.state)

@[simp] theorem current_append (lines : List EvolutionLine) (line : EvolutionLine) :
    current (lines ++ [line]) = some line.state := by
  simp [current]

theorem load_ok {lines lines' : List EvolutionLine} {state : EvolutionState} :
    load lines = .ok state lines' ↔ current lines = some state ∧ lines = lines' := orRaise_ok

theorem stateCandidate_ok {state : EvolutionState} {candidateId : String}
    {candidate : EvolutionCandidate} {lines lines' : List EvolutionLine} :
    stateCandidate state candidateId lines = .ok candidate lines' ↔
      state.candidates.lookup candidateId = some candidate ∧ lines = lines' := orRaise_ok

theorem requireStatus_ok {candidate : EvolutionCandidate} {expected : EvolutionStatus} {u : PUnit}
    {lines lines' : List EvolutionLine} :
    requireStatus candidate expected lines = .ok u lines' ↔
      candidate.status = expected ∧ lines = lines' :=
  require_ok

theorem requireReviewer_ok {reviewer r : String} {lines lines' : List EvolutionLine} :
    requireReviewer reviewer lines = .ok r lines' ↔
      strip reviewer ≠ "" ∧ r = strip reviewer ∧ lines = lines' := by
  unfold requireReviewer
  rw [estate_bind_ok]
  constructor
  · rintro ⟨_, _, hrequire, hpure⟩
    obtain ⟨hne, rfl⟩ := require_ok.mp hrequire
    cases hpure
    exact ⟨hne, rfl, rfl⟩
  · rintro ⟨hne, rfl, rfl⟩
    exact ⟨⟨⟩, lines, require_ok.mpr ⟨hne, rfl⟩, rfl⟩

theorem rollbackTarget_some {state : EvolutionState} {index : ℕ} {record : PromotionRecord}
    (h : rollbackTarget state = some (index, record)) :
    ∃ pre post, state.promotions = pre ++ record :: post ∧ pre.length = index ∧
      Promotes state.activeVersion record ∧ ∀ later ∈ post, ¬ Promotes state.activeVersion later := by
  obtain ⟨hpromotes, before, after, hsplit, hbefore⟩ := List.find?_eq_some_iff_append.mp h
  have hforward : state.promotions.zipIdx.map Prod.swap =
      after.reverse ++ (index, record) :: before.reverse := by
    rw [← List.reverse_reverse (state.promotions.zipIdx.map Prod.swap), hsplit]
    simp
  have hrecords : state.promotions =
      after.reverse.map Prod.snd ++ record :: before.reverse.map Prod.snd := by
    have hmap := congrArg (List.map Prod.snd) hforward
    simpa [Function.comp_def] using hmap
  have hindex : after.length = index := by
    have hget := congrArg (fun entries => entries[after.length]?) hforward
    simp only [List.getElem?_map, List.getElem?_zipIdx, Nat.zero_add] at hget
    rw [List.getElem?_append_right (by simp)] at hget
    simp only [List.length_reverse, Nat.sub_self, List.getElem?_cons_zero] at hget
    obtain ⟨_, hentry, hpair⟩ := Option.map_eq_some_iff.mp hget
    obtain ⟨_, _, rfl⟩ := Option.map_eq_some_iff.mp hentry
    exact congrArg Prod.fst hpair
  refine ⟨_, _, hrecords, by simpa using hindex, by simpa using hpromotes, ?_⟩
  intro later hlater
  obtain ⟨entry, hentry, rfl⟩ := List.mem_map.mp hlater
  have hno := hbefore entry (List.mem_reverse.mp hentry)
  simpa using hno

end EvolutionController

/-- What the call does to the state where it does not raise. -/
inductive EvolutionStep (state : EvolutionState) : EvolutionCall → EvolutionState → Prop
  | init (initialVersion : String) : EvolutionStep state (.init initialVersion) state
  | submit {candidate : EvolutionCandidate} {now : DateTime} (hstatus : candidate.status = .candidate)
      (hnew : state.candidates.lookup candidate.candidateId = none) :
      EvolutionStep state (.submit candidate now)
        { state with
          candidates :=
            state.candidates.upsert (EvolutionController.submitted candidate state.activeVersion now) }
  | offlineGate {candidateId : String} {report : EvalReport} {now : DateTime}
      {candidate : EvolutionCandidate} (hfound : state.candidates.lookup candidateId = some candidate)
      (hstatus : candidate.status = .candidate)
      (hpair : (report.baselineVersion, report.candidateVersion) =
        (candidate.baseVersion, candidate.proposedVersion)) :
      EvolutionStep state (.offlineGate candidateId report now)
        { state with candidates := state.candidates.upsert { candidate with
            status := if report.passed then .offlinePassed else .rejected
            offlineReport := some report
            rejectionReason := if report.passed then "" else "offline_eval_failed"
            updatedAt := now } }
  | recordShadow {candidateId : String} {result : ShadowResult} {now : DateTime}
      {candidate : EvolutionCandidate} (hfound : state.candidates.lookup candidateId = some candidate)
      (hstatus : candidate.status = .offlinePassed)
      (hpair : (result.baselineVersion, result.candidateVersion) =
        (candidate.baseVersion, candidate.proposedVersion)) :
      EvolutionStep state (.recordShadow candidateId result now)
        { state with candidates := state.candidates.upsert { candidate with
            status := if result.passed then .shadowPassed else .rejected
            shadowResult := some result
            rejectionReason := if result.passed then "" else "shadow_failed"
            updatedAt := now } }
  | approve {candidateId reviewer reason : String} {now : DateTime}
      {candidate : EvolutionCandidate} (hfound : state.candidates.lookup candidateId = some candidate)
      (hstatus : candidate.status = .shadowPassed) (hreviewer : strip reviewer ≠ "") :
      EvolutionStep state (.approve candidateId reviewer reason now)
        { state with candidates := state.candidates.upsert { candidate with
            status := .approved
            reviewedBy := some (strip reviewer)
            approvalReason := reason
            updatedAt := now } }
  | promote {candidateId : String} {now promotedAt : DateTime} {candidate : EvolutionCandidate}
      (hfound : state.candidates.lookup candidateId = some candidate)
      (hstatus : candidate.status = .approved) (hbase : state.activeVersion = candidate.baseVersion)
      (hunused : ∀ record ∈ state.promotions, record.version ≠ candidate.proposedVersion) :
      EvolutionStep state (.promote candidateId now promotedAt)
        { activeVersion := candidate.proposedVersion
          candidates := state.candidates.upsert { candidate with status := .promoted, updatedAt := now }
          promotions := state.promotions ++ [
            { candidateId := candidateId, previousVersion := state.activeVersion,
              version := candidate.proposedVersion, promotedAt := promotedAt }] }
  | rollback {reviewer reason : String} {now : DateTime} {pre post : List PromotionRecord}
      {record : PromotionRecord} {candidate : EvolutionCandidate} (hreviewer : strip reviewer ≠ "")
      (hsplit : state.promotions = pre ++ record :: post)
      (hpromotes : EvolutionController.Promotes state.activeVersion record)
      (hlast : ∀ later ∈ post, ¬ EvolutionController.Promotes state.activeVersion later)
      (hfound : state.candidates.lookup record.candidateId = some candidate)
      (hstatus : candidate.status = .promoted) :
      EvolutionStep state (.rollback reviewer reason now)
        { activeVersion := record.previousVersion
          candidates := state.candidates.upsert { candidate with status := .rolledBack, updatedAt := now }
          promotions := pre ++ { record with
            rolledBackAt := some now, rollbackReviewer := some (strip reviewer),
            rollbackReason := reason } :: post }

namespace EvolutionController

variable {lines lines' : List EvolutionLine}

theorem submit_step {candidate stored : EvolutionCandidate} {now : DateTime}
    (h : submit candidate now lines = .ok stored lines') :
    ∃ state state', current lines = some state ∧ current lines' = some state' ∧
      EvolutionStep state (.submit candidate now) state' := by
  obtain ⟨_, _, hcheck, h₁⟩ := estate_bind_ok.mp h
  obtain ⟨hstatus, rfl⟩ := require_ok.mp hcheck
  obtain ⟨state, _, hload, h₂⟩ := estate_bind_ok.mp h₁
  obtain ⟨hcurrent, rfl⟩ := load_ok.mp hload
  obtain ⟨_, _, hcheck, h₃⟩ := estate_bind_ok.mp h₂
  obtain ⟨hnew, rfl⟩ := require_ok.mp hcheck
  cases h₃
  exact ⟨state, _, hcurrent, current_append _ _, .submit hstatus hnew⟩

theorem offlineGate_step {candidateId : String} {report : EvalReport} {now : DateTime}
    {evaluated : EvolutionCandidate} (h : offlineGate candidateId report now lines = .ok evaluated lines') :
    ∃ state state', current lines = some state ∧ current lines' = some state' ∧
      EvolutionStep state (.offlineGate candidateId report now) state' := by
  obtain ⟨state, _, hload, h₁⟩ := estate_bind_ok.mp h
  obtain ⟨hcurrent, rfl⟩ := load_ok.mp hload
  obtain ⟨candidate, _, hcandidate, h₂⟩ := estate_bind_ok.mp h₁
  obtain ⟨hfound, rfl⟩ := stateCandidate_ok.mp hcandidate
  obtain ⟨_, _, hcheck, h₃⟩ := estate_bind_ok.mp h₂
  obtain ⟨hstatus, rfl⟩ := requireStatus_ok.mp hcheck
  obtain ⟨_, _, hcheck, h₄⟩ := estate_bind_ok.mp h₃
  obtain ⟨hpair, rfl⟩ := require_ok.mp hcheck
  cases h₄
  exact ⟨state, _, hcurrent, current_append _ _, .offlineGate hfound hstatus hpair⟩

theorem recordShadow_step {candidateId : String} {result : ShadowResult} {now : DateTime}
    {shadowed : EvolutionCandidate} (h : recordShadow candidateId result now lines = .ok shadowed lines') :
    ∃ state state', current lines = some state ∧ current lines' = some state' ∧
      EvolutionStep state (.recordShadow candidateId result now) state' := by
  obtain ⟨state, _, hload, h₁⟩ := estate_bind_ok.mp h
  obtain ⟨hcurrent, rfl⟩ := load_ok.mp hload
  obtain ⟨candidate, _, hcandidate, h₂⟩ := estate_bind_ok.mp h₁
  obtain ⟨hfound, rfl⟩ := stateCandidate_ok.mp hcandidate
  obtain ⟨_, _, hcheck, h₃⟩ := estate_bind_ok.mp h₂
  obtain ⟨hstatus, rfl⟩ := requireStatus_ok.mp hcheck
  obtain ⟨_, _, hcheck, h₄⟩ := estate_bind_ok.mp h₃
  obtain ⟨hpair, rfl⟩ := require_ok.mp hcheck
  cases h₄
  exact ⟨state, _, hcurrent, current_append _ _, .recordShadow hfound hstatus hpair⟩

theorem approve_step {candidateId reviewer reason : String} {now : DateTime}
    {approved : EvolutionCandidate} (h : approve candidateId reviewer reason now lines = .ok approved lines') :
    ∃ state state', current lines = some state ∧ current lines' = some state' ∧
      EvolutionStep state (.approve candidateId reviewer reason now) state' := by
  obtain ⟨state, _, hload, h₁⟩ := estate_bind_ok.mp h
  obtain ⟨hcurrent, rfl⟩ := load_ok.mp hload
  obtain ⟨candidate, _, hcandidate, h₂⟩ := estate_bind_ok.mp h₁
  obtain ⟨hfound, rfl⟩ := stateCandidate_ok.mp hcandidate
  obtain ⟨_, _, hcheck, h₃⟩ := estate_bind_ok.mp h₂
  obtain ⟨hstatus, rfl⟩ := requireStatus_ok.mp hcheck
  obtain ⟨_, _, hreviewed, h₄⟩ := estate_bind_ok.mp h₃
  obtain ⟨hreviewer, rfl, rfl⟩ := requireReviewer_ok.mp hreviewed
  cases h₄
  exact ⟨state, _, hcurrent, current_append _ _, .approve hfound hstatus hreviewer⟩

theorem promote_step {candidateId : String} {now promotedAt : DateTime} {promotion : PromotionRecord}
    (h : promote candidateId now promotedAt lines = .ok promotion lines') :
    ∃ state state', current lines = some state ∧ current lines' = some state' ∧
      EvolutionStep state (.promote candidateId now promotedAt) state' := by
  obtain ⟨state, _, hload, h₁⟩ := estate_bind_ok.mp h
  obtain ⟨hcurrent, rfl⟩ := load_ok.mp hload
  obtain ⟨candidate, _, hcandidate, h₂⟩ := estate_bind_ok.mp h₁
  obtain ⟨hfound, rfl⟩ := stateCandidate_ok.mp hcandidate
  obtain ⟨_, _, hcheck, h₃⟩ := estate_bind_ok.mp h₂
  obtain ⟨hstatus, rfl⟩ := requireStatus_ok.mp hcheck
  obtain ⟨_, _, hcheck, h₄⟩ := estate_bind_ok.mp h₃
  obtain ⟨hbase, rfl⟩ := require_ok.mp hcheck
  obtain ⟨_, _, hcheck, h₅⟩ := estate_bind_ok.mp h₄
  obtain ⟨hunused, rfl⟩ := require_ok.mp hcheck
  cases h₅
  refine ⟨state, _, hcurrent, current_append _ _, .promote hfound hstatus hbase ?_⟩
  intro record hrecord hversion
  exact hunused ⟨record, hrecord, hversion⟩

theorem rollback_step {reviewer reason : String} {now : DateTime} {result : RollbackResult}
    (h : rollback reviewer reason now lines = .ok result lines') :
    ∃ state state', current lines = some state ∧ current lines' = some state' ∧
      EvolutionStep state (.rollback reviewer reason now) state' := by
  obtain ⟨_, _, hreviewed, h₁⟩ := estate_bind_ok.mp h
  obtain ⟨hreviewer, rfl, rfl⟩ := requireReviewer_ok.mp hreviewed
  obtain ⟨state, _, hload, h₂⟩ := estate_bind_ok.mp h₁
  obtain ⟨hcurrent, rfl⟩ := load_ok.mp hload
  obtain ⟨⟨index, record⟩, _, hsearch, h₃⟩ := estate_bind_ok.mp h₂
  obtain ⟨htarget, rfl⟩ := orRaise_ok.mp hsearch
  obtain ⟨pre, post, hsplit, rfl, hpromotes, hlast⟩ := rollbackTarget_some htarget
  obtain ⟨candidate, _, hcandidate, h₄⟩ := estate_bind_ok.mp h₃
  obtain ⟨hfound, rfl⟩ := stateCandidate_ok.mp hcandidate
  obtain ⟨_, _, hcheck, h₅⟩ := estate_bind_ok.mp h₄
  obtain ⟨hstatus, rfl⟩ := requireStatus_ok.mp hcheck
  cases h₅
  refine ⟨state, _, hcurrent, current_append _ _, ?_⟩
  have hset : ∀ rolled, state.promotions.set pre.length rolled = pre ++ rolled :: post := by
    intro rolled
    rw [hsplit]
    simp
  rw [hset]
  exact .rollback hreviewer hsplit hpromotes hlast hfound hstatus

end EvolutionController

namespace EvolutionCall

variable {call : EvolutionCall} {lines lines' : List EvolutionLine} {state : EvolutionState}

/-- A call that returns has taken its step. -/
theorem run_step {u : PUnit} (hstate : EvolutionController.current lines = some state)
    (h : call.run lines = .ok u lines') :
    ∃ state', EvolutionController.current lines' = some state' ∧ EvolutionStep state call state' := by
  have htake : (∃ state₁ state', EvolutionController.current lines = some state₁ ∧
      EvolutionController.current lines' = some state' ∧ EvolutionStep state₁ call state') →
      ∃ state', EvolutionController.current lines' = some state' ∧ EvolutionStep state call state' := by
    rintro ⟨state₁, state', hcurrent, hcurrent', hstep⟩
    obtain rfl := Option.some.inj (hstate.symm.trans hcurrent)
    exact ⟨state', hcurrent', hstep⟩
  cases call with
  | init initialVersion =>
      obtain ⟨_, _, hcheck, h₁⟩ := estate_bind_ok.mp h
      obtain ⟨_, rfl⟩ := require_ok.mp hcheck
      obtain ⟨stored, _, hget, h₂⟩ := estate_bind_ok.mp h₁
      cases hget
      have hne : lines ≠ [] := by
        rintro rfl
        cases hstate
      rw [if_neg hne] at h₂
      cases h₂
      exact ⟨state, hstate, .init initialVersion⟩
  | submit candidate now =>
      obtain ⟨_, hrun⟩ := estate_discard_ok.mp h
      exact htake (EvolutionController.submit_step hrun)
  | offlineGate candidateId report now =>
      obtain ⟨_, hrun⟩ := estate_discard_ok.mp h
      exact htake (EvolutionController.offlineGate_step hrun)
  | recordShadow candidateId result now =>
      obtain ⟨_, hrun⟩ := estate_discard_ok.mp h
      exact htake (EvolutionController.recordShadow_step hrun)
  | approve candidateId reviewer reason now =>
      obtain ⟨_, hrun⟩ := estate_discard_ok.mp h
      exact htake (EvolutionController.approve_step hrun)
  | promote candidateId now promotedAt =>
      obtain ⟨_, hrun⟩ := estate_discard_ok.mp h
      exact htake (EvolutionController.promote_step hrun)
  | rollback reviewer reason now =>
      obtain ⟨_, hrun⟩ := estate_discard_ok.mp h
      exact htake (EvolutionController.rollback_step hrun)

end EvolutionCall

namespace EvolutionController

/-! ### A raise changes nothing -/

theorem keeps_load : Keeps id load := keeps_get.bind (fun _ => keeps_orRaise _)

theorem keeps_requireReviewer (reviewer : String) : Keeps id (requireReviewer reviewer) :=
  (keeps_require _).bind (fun _ => keeps_pure _)

/-- The last part of every method: a line is appended, and the result returned. -/
theorem raisesClean_append {α : Type} (action : String) (state : EvolutionState) (result : α) :
    RaisesClean id (append action state >>= fun _ => pure result) :=
  ((neverRaises_modify _).bind (fun _ => neverRaises_pure result)).raisesClean

theorem raisesClean_init (initialVersion : String) : RaisesClean id (init initialVersion) := by
  refine .bind (keeps_require _) (fun _ => .bind keeps_get (fun lines => ?_))
  by_cases hempty : lines = []
  · rw [if_pos hempty]
    exact (neverRaises_modify _).raisesClean
  · rw [if_neg hempty]
    exact (neverRaises_pure _).raisesClean

theorem raisesClean_submit (candidate : EvolutionCandidate) (now : DateTime) :
    RaisesClean id (submit candidate now) :=
  .bind (keeps_require _) fun _ => .bind keeps_load fun _ => .bind (keeps_require _) fun _ =>
    raisesClean_append _ _ _

theorem raisesClean_offlineGate (candidateId : String) (report : EvalReport) (now : DateTime) :
    RaisesClean id (offlineGate candidateId report now) :=
  .bind keeps_load fun _ => .bind (keeps_orRaise _) fun _ => .bind (keeps_require _) fun _ =>
    .bind (keeps_require _) fun _ => raisesClean_append _ _ _

theorem raisesClean_recordShadow (candidateId : String) (result : ShadowResult) (now : DateTime) :
    RaisesClean id (recordShadow candidateId result now) :=
  .bind keeps_load fun _ => .bind (keeps_orRaise _) fun _ => .bind (keeps_require _) fun _ =>
    .bind (keeps_require _) fun _ => raisesClean_append _ _ _

theorem raisesClean_approve (candidateId reviewer reason : String) (now : DateTime) :
    RaisesClean id (approve candidateId reviewer reason now) :=
  .bind keeps_load fun _ => .bind (keeps_orRaise _) fun _ => .bind (keeps_require _) fun _ =>
    .bind (keeps_requireReviewer reviewer) fun _ => raisesClean_append _ _ _

theorem raisesClean_promote (candidateId : String) (now promotedAt : DateTime) :
    RaisesClean id (promote candidateId now promotedAt) :=
  .bind keeps_load fun _ => .bind (keeps_orRaise _) fun _ => .bind (keeps_require _) fun _ =>
    .bind (keeps_require _) fun _ => .bind (keeps_require _) fun _ => raisesClean_append _ _ _

theorem raisesClean_rollback (reviewer reason : String) (now : DateTime) :
    RaisesClean id (rollback reviewer reason now) :=
  .bind (keeps_requireReviewer reviewer) fun _ => .bind keeps_load fun _ =>
    .bind (keeps_orRaise _) fun _ => .bind (keeps_orRaise _) fun _ => .bind (keeps_require _) fun _ =>
      raisesClean_append _ _ _

end EvolutionController

theorem EvolutionCall.run_error {call : EvolutionCall} {lines lines' : List EvolutionLine}
    {e : EvolutionError} (h : call.run lines = .error e lines') : lines' = lines := by
  cases call with
  | init initialVersion => exact EvolutionController.raisesClean_init _ _ _ _ h
  | submit candidate now =>
      exact EvolutionController.raisesClean_submit _ _ _ _ _ (estate_discard_error.mp h)
  | offlineGate candidateId report now =>
      exact EvolutionController.raisesClean_offlineGate _ _ _ _ _ _ (estate_discard_error.mp h)
  | recordShadow candidateId result now =>
      exact EvolutionController.raisesClean_recordShadow _ _ _ _ _ _ (estate_discard_error.mp h)
  | approve candidateId reviewer reason now =>
      exact EvolutionController.raisesClean_approve _ _ _ _ _ _ _ (estate_discard_error.mp h)
  | promote candidateId now promotedAt =>
      exact EvolutionController.raisesClean_promote _ _ _ _ _ _ (estate_discard_error.mp h)
  | rollback reviewer reason now =>
      exact EvolutionController.raisesClean_rollback _ _ _ _ _ _ (estate_discard_error.mp h)

end CrazyHarness
