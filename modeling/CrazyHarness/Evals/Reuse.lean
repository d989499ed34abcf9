import CrazyHarness.Evals.Releases

/-! # Versions that are released again

`promote` refuses a version that a promotion has recorded.  The initial version became active without
one: `activeVersion_recorded` says that it is the only such version, and `releasedOnce_iff` that a version
is promoted twice exactly where an approved candidate proposes the initial version again. -/

namespace CrazyHarness

open Lib

namespace EvolutionController

variable {initialVersion : String} {calls : List EvolutionCall}

/-- The active version after the calls, on a new file. -/
def activeAfter (initialVersion : String) (calls : List EvolutionCall) : Option String :=
  (current (after initialVersion calls)).map (·.activeVersion)

/-- A version that was active before becomes active again by a rollback only. -/
def ReleasedOnce (initialVersion : String) (calls : List EvolutionCall) : Prop :=
  ∀ pre call, pre ++ [call] <+: calls → ∀ earlier, earlier <+: pre →
    activeAfter initialVersion (pre ++ [call]) ≠ activeAfter initialVersion pre →
    activeAfter initialVersion (pre ++ [call]) = activeAfter initialVersion earlier →
      ∃ reviewer reason now, call = .rollback reviewer reason now

/-- The call promotes an approved candidate of the active version that proposes the initial version, and
no promotion has recorded it. -/
def PromotesInitial (initialVersion : String) (lines : List EvolutionLine) (call : EvolutionCall) : Prop :=
  ∃ candidateId now promotedAt state candidate, call = .promote candidateId now promotedAt ∧
    current lines = some state ∧ state.candidates.lookup candidateId = some candidate ∧
    candidate.status = .approved ∧ state.activeVersion = candidate.baseVersion ∧
    (∀ record ∈ state.promotions, record.version ≠ candidate.proposedVersion) ∧
    candidate.proposedVersion = initialVersion

/-! ### Recorded versions -/

/-- A step keeps the versions that are recorded. -/
theorem recorded_step {state state' : EvolutionState} {call : EvolutionCall}
    (h : EvolutionStep state call state') {version : String}
    (hrecorded : ∃ record ∈ state.promotions, record.version = version) :
    ∃ record ∈ state'.promotions, record.version = version := by
  cases h with
  | init initialVersion => exact hrecorded
  | submit hstatus hnew => exact hrecorded
  | offlineGate hfound hstatus hpair => exact hrecorded
  | recordShadow hfound hstatus hpair => exact hrecorded
  | approve hfound hstatus hreviewer => exact hrecorded
  | promote hfound hstatus hbase hunused =>
      obtain ⟨record, hmem, hversion⟩ := hrecorded
      exact ⟨record, List.mem_append_left _ hmem, hversion⟩
  | @rollback reviewer reason now pre post rolled candidate hreviewer hsplit hpromotes hlast hfound hstatus =>
      obtain ⟨record, hmem, hversion⟩ := hrecorded
      rw [hsplit, List.mem_append, List.mem_cons] at hmem
      rcases hmem with hpre | rfl | hpost
      · exact ⟨record, List.mem_append_left _ hpre, hversion⟩
      · exact ⟨_, List.mem_append_right _ List.mem_cons_self, hversion⟩
      · exact ⟨record, List.mem_append_right _ (List.mem_cons_of_mem _ hpost), hversion⟩

/-- Every version that has been active is the initial one or recorded. -/
theorem activeVersion_recorded (calls : List EvolutionCall) {earlier : List EvolutionCall}
    (hearlier : earlier <+: calls) {state state₀ : EvolutionState}
    (hstate : current (after initialVersion calls) = some state)
    (hstate₀ : current (after initialVersion earlier) = some state₀) :
    state₀.activeVersion = initialVersion ∨
      ∃ record ∈ state.promotions, record.version = state₀.activeVersion := by
  induction calls using List.reverseRecOn generalizing earlier state state₀ with
  | nil =>
      obtain rfl := List.prefix_nil.mp hearlier
      cases hstate₀
      exact .inl rfl
  | append_singleton calls call ih =>
      obtain ⟨before, hbefore, hchain, _⟩ := gated_after initialVersion calls
      rcases after_cases calls call with ⟨_, hsame⟩ | ⟨_, hstep⟩
      · rw [hsame] at hstate
        rcases List.prefix_concat_iff.mp hearlier with rfl | hpre
        · rw [hsame] at hstate₀
          exact ih List.prefix_rfl hstate hstate₀
        · exact ih hpre hstate hstate₀
      · obtain ⟨state', hstate', htaken⟩ := hstep before hbefore
        obtain rfl := Option.some.inj (hstate.symm.trans hstate')
        rcases List.prefix_concat_iff.mp hearlier with rfl | hpre
        · obtain rfl := Option.some.inj (hstate.symm.trans hstate₀)
          have hkept := ih List.prefix_rfl hbefore hbefore
          have hrecorded := @recorded_step _ _ _ htaken
          cases htaken with
          | init initialVersion => exact hkept
          | submit hstatus hnew => exact hkept
          | offlineGate hfound hstatus hpair => exact hkept
          | recordShadow hfound hstatus hpair => exact hkept
          | approve hfound hstatus hreviewer => exact hkept
          | promote hfound hstatus hbase hunused =>
              exact .inr ⟨_, List.mem_append_right _ (List.mem_singleton_self _), rfl⟩
          | @rollback reviewer reason now pre post record candidate hreviewer hsplit hpromotes hlast hfound
              hstatus =>
              -- the version was active when the promotion was recorded
              obtain ⟨hforce, _⟩ := EvolutionState.inForce_split hchain hsplit hpromotes hlast
              have hpushed : pre.filter (·.rolledBackAt = none) ++ [record] <+: before.inForce := by rw [hforce]
              obtain ⟨at', _, _, post', hcalls, _, state₁, hstate₁, _, hactive⟩ :=
                stacked_after initialVersion calls hbefore hpushed
              have hpre : at' <+: calls := ⟨_, hcalls.symm⟩
              have hbase := ih hpre hbefore hstate₁
              rw [hactive] at hbase
              exact hbase.imp id hrecorded
        · exact (ih hpre hbefore hstate₀).imp id (recorded_step htaken)

/-! ### Promotions -/

/-- A promotion whose checks hold returns. -/
theorem returns_promote {lines : List EvolutionLine} {state : EvolutionState}
    (hstate : current lines = some state) {candidateId : String} {candidate : EvolutionCandidate}
    (hfound : state.candidates.lookup candidateId = some candidate) (hstatus : candidate.status = .approved)
    (hbase : state.activeVersion = candidate.baseVersion)
    (hunused : ∀ record ∈ state.promotions, record.version ≠ candidate.proposedVersion)
    (now promotedAt : DateTime) :
    (EvolutionCall.promote candidateId now promotedAt).returns lines = true := by
  have hnone : ¬ ∃ record ∈ state.promotions, record.version = candidate.proposedVersion := by
    rintro ⟨record, hmem, hversion⟩
    exact hunused record hmem hversion
  have hpromote : ∃ promotion lines', promote candidateId now promotedAt lines = .ok promotion lines' :=
    ⟨_, _, estate_bind_ok.mpr ⟨state, lines, load_ok.mpr ⟨hstate, rfl⟩,
      estate_bind_ok.mpr ⟨candidate, lines, stateCandidate_ok.mpr ⟨hfound, rfl⟩,
        estate_bind_ok.mpr ⟨⟨⟩, lines, requireStatus_ok.mpr ⟨hstatus, rfl⟩,
          estate_bind_ok.mpr ⟨⟨⟩, lines, require_ok.mpr ⟨hbase, rfl⟩,
            estate_bind_ok.mpr ⟨⟨⟩, lines, require_ok.mpr ⟨hnone, rfl⟩, rfl⟩⟩⟩⟩⟩⟩
  obtain ⟨promotion, lines', hok⟩ := hpromote
  have hrun : (EvolutionCall.promote candidateId now promotedAt).run lines = .ok ⟨⟩ lines' :=
    estate_discard_ok.mpr ⟨promotion, hok⟩
  rw [EvolutionCall.returns, hrun]

/-- A call other than a rollback that makes another version active promotes one that is not recorded. -/
theorem promoted_of_changed {state state' : EvolutionState} {call : EvolutionCall}
    (h : EvolutionStep state call state') (hne : state'.activeVersion ≠ state.activeVersion) :
    (∃ reviewer reason now, call = .rollback reviewer reason now) ∨
      ∃ candidateId now promotedAt candidate, call = .promote candidateId now promotedAt ∧
        state.candidates.lookup candidateId = some candidate ∧ candidate.status = .approved ∧
        state.activeVersion = candidate.baseVersion ∧
        (∀ record ∈ state.promotions, record.version ≠ candidate.proposedVersion) ∧
        state'.activeVersion = candidate.proposedVersion := by
  cases h with
  | init initialVersion => exact absurd rfl hne
  | submit hstatus hnew => exact absurd rfl hne
  | offlineGate hfound hstatus hpair => exact absurd rfl hne
  | recordShadow hfound hstatus hpair => exact absurd rfl hne
  | approve hfound hstatus hreviewer => exact absurd rfl hne
  | promote hfound hstatus hbase hunused =>
      exact .inr ⟨_, _, _, _, rfl, hfound, hstatus, hbase, hunused, rfl⟩
  | rollback hreviewer hsplit hpromotes hlast hfound hstatus => exact .inl ⟨_, _, _, rfl⟩

end EvolutionController

open EvolutionController in
/-- **No version is released twice**, exactly as long as no call promotes the initial version again. -/
theorem releasedOnce_iff (initialVersion : String) (calls : List EvolutionCall) :
    ReleasedOnce initialVersion calls ↔
      EveryStep EvolutionCall.apply (fun lines call => ¬ PromotesInitial initialVersion lines call)
        (created initialVersion) calls := by
  rw [everyStep_iff_prefixes]
  constructor
  · rintro h pre call hpre ⟨candidateId, now, promotedAt, state, candidate, rfl, hstate, hfound, hstatus,
      hbase, hunused, hinitial⟩
    have hbefore : current (after initialVersion pre) = some state := hstate
    rcases after_cases pre (.promote candidateId now promotedAt) with
      ⟨hraises, _⟩ | ⟨_, hstep⟩
    · rw [returns_promote hbefore hfound hstatus hbase hunused] at hraises
      cases hraises
    · obtain ⟨state', hstate', htaken⟩ := hstep state hbefore
      have hactive : state'.activeVersion = initialVersion := by
        cases htaken with
        | promote hfound' _ _ _ =>
            obtain rfl := Option.some.inj (hfound.symm.trans hfound')
            exact hinitial
      have hchanged : initialVersion ≠ state.activeVersion := by
        rw [← hinitial, hbase]
        exact candidate.proposesANewVersion
      obtain ⟨reviewer, reason, at', hcall⟩ := h pre _ hpre [] List.nil_prefix
        (by
          rw [activeAfter, activeAfter, hstate', hbefore, Option.map_some, Option.map_some, hactive]
          exact fun heq => hchanged (Option.some.inj heq))
        (by
          rw [activeAfter, hstate', Option.map_some, hactive]
          rfl)
      cases hcall
  · intro h pre call hpre earlier hearlier hchanged hagain
    obtain ⟨state, hstate, _⟩ := gated_after initialVersion pre
    obtain ⟨state₀, hstate₀, _⟩ := gated_after initialVersion earlier
    rcases after_cases pre call with ⟨_, hsame⟩ | ⟨_, hstep⟩
    · rw [activeAfter, hsame] at hchanged
      exact absurd rfl hchanged
    · obtain ⟨state', hstate', htaken⟩ := hstep state hstate
      rw [activeAfter, activeAfter, hstate', hstate] at hchanged
      rw [activeAfter, activeAfter, hstate', hstate₀] at hagain
      have hne : state'.activeVersion ≠ state.activeVersion := fun heq => hchanged (congrArg some heq)
      have heq : state'.activeVersion = state₀.activeVersion := Option.some.inj hagain
      rcases promoted_of_changed htaken hne with hrollback | ⟨candidateId, now, promotedAt, candidate, rfl,
        hfound, hstatus, hbase, hunused, hproposed⟩
      · exact hrollback
      · rcases activeVersion_recorded pre hearlier hstate hstate₀ with hinitial | ⟨record, hmem, hversion⟩
        · refine absurd ?_ (h pre _ hpre)
          exact ⟨candidateId, now, promotedAt, state, candidate, rfl, hstate, hfound, hstatus, hbase, hunused,
            by rw [← hproposed, heq, hinitial]⟩
        · exact absurd (by rw [hversion, ← heq, hproposed]) (hunused record hmem)

/-- A change of one prompt, from one text to another. -/
def promptDiff (before after : String) (h : (Json.str before).pyEq (.str after) = false := by decide) :
    TypedDiff where
  target := .prompt
  path := "prompt"
  before := .str before
  after := .str after
  changesValue := h

/-- The calls that bring a change of the prompt from `base` to `proposed` into force. -/
def releaseCalls (candidate : EvolutionCandidate) (now : DateTime) : List EvolutionCall :=
  [.submit candidate now,
    .offlineGate candidate.candidateId ⟨candidate.baseVersion, candidate.proposedVersion, true⟩ now,
    .recordShadow candidate.candidateId ⟨true, candidate.baseVersion, candidate.proposedVersion⟩ now,
    .approve candidate.candidateId "owner" "" now,
    .promote candidate.candidateId now now]

/-- A change to the second version. -/
def forthCandidate : EvolutionCandidate where
  candidateId := "forth"
  baseVersion := "v1"
  proposedVersion := "v2"
  diffs := [promptDiff "short" "long"]
  updatedAt := ⟨0, some 0⟩

/-- A change back to the first version. -/
def backCandidate : EvolutionCandidate where
  candidateId := "back"
  baseVersion := "v2"
  proposedVersion := "v1"
  diffs := [promptDiff "long" "short"]
  updatedAt := ⟨0, some 0⟩

open EvolutionController in
/-- The initial version is promoted: no promotion has recorded it. -/
theorem not_releasedOnce : ¬ ReleasedOnce "v1"
    (releaseCalls forthCandidate ⟨0, some 0⟩ ++ releaseCalls backCandidate ⟨0, some 0⟩) := by
  intro h
  obtain ⟨reviewer, reason, now, hcall⟩ := h
    (releaseCalls forthCandidate ⟨0, some 0⟩ ++ (releaseCalls backCandidate ⟨0, some 0⟩).dropLast)
    (.promote "back" ⟨0, some 0⟩ ⟨0, some 0⟩) (by decide) [] List.nil_prefix
    (by decide +kernel) (by decide +kernel)
  cases hcall

end CrazyHarness
