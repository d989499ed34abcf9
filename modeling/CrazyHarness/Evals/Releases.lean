import CrazyHarness.Evals.Evolution

/-! # Releases

What the calls of the release gate amount to, over any sequence of them.

* `FullyGated`: the promotions in force are a chain from the initial version to the active one, each
  by a candidate that has passed every gate.
* `stacked_after`: each promotion in force was pushed on the list in force of an earlier moment, so that
  the rollback that takes it off restores that moment's active version.
* `evolution_gated`: both, after any calls. -/

namespace CrazyHarness

open Lib

/-- The promotions that are not rolled back. -/
def EvolutionState.inForce (state : EvolutionState) : List PromotionRecord :=
  state.promotions.filter (·.rolledBackAt = none)

/-- Each promotion starts from the version of the one before it, the first from `a`; `b` is the last. -/
def VersionChain (a : String) : List PromotionRecord → String → Prop
  | [], b => a = b
  | record :: records, b => record.previousVersion = a ∧ VersionChain record.version records b

/-- The diffs of the candidate touch no hard policy and expand no permission. -/
def EvolutionCandidate.Harmless (candidate : EvolutionCandidate) : Prop :=
  ∀ diff ∈ candidate.diffs, diff.target ≠ .hardPolicy ∧ diff.permissionEffect ≠ .expanded

/-- The calls that bring the candidate of a pair of versions to a status, in this order. -/
inductive GateTrail (candidateId base proposed : String) : EvolutionStatus → List EvolutionCall → Prop
  | submitted {candidate : EvolutionCandidate} {now : DateTime}
      (hid : candidate.candidateId = candidateId) (hbase : candidate.baseVersion = base)
      (hproposed : candidate.proposedVersion = proposed) :
      GateTrail candidateId base proposed .candidate [.submit candidate now]
  | offlinePassed {trail : List EvolutionCall} {report : EvalReport} {now : DateTime}
      (h : GateTrail candidateId base proposed .candidate trail) (hpassed : report.passed = true)
      (hbase : report.baselineVersion = base) (hproposed : report.candidateVersion = proposed) :
      GateTrail candidateId base proposed .offlinePassed
        (trail ++ [.offlineGate candidateId report now])
  | shadowPassed {trail : List EvolutionCall} {result : ShadowResult} {now : DateTime}
      (h : GateTrail candidateId base proposed .offlinePassed trail) (hpassed : result.passed = true)
      (hbase : result.baselineVersion = base) (hproposed : result.candidateVersion = proposed) :
      GateTrail candidateId base proposed .shadowPassed
        (trail ++ [.recordShadow candidateId result now])
  | approved {trail : List EvolutionCall} {reviewer reason : String} {now : DateTime}
      (h : GateTrail candidateId base proposed .shadowPassed trail) (hreviewer : strip reviewer ≠ "") :
      GateTrail candidateId base proposed .approved
        (trail ++ [.approve candidateId reviewer reason now])
  | promoted {trail : List EvolutionCall} {now promotedAt : DateTime}
      (h : GateTrail candidateId base proposed .approved trail) :
      GateTrail candidateId base proposed .promoted (trail ++ [.promote candidateId now promotedAt])

/-- The calls among `accepted` have brought the candidate to its status. -/
def EvolutionCandidate.HasPassed (candidate : EvolutionCandidate) (accepted : List EvolutionCall) : Prop :=
  ∃ trail, trail.Sublist accepted ∧ GateTrail candidate.candidateId candidate.baseVersion
    candidate.proposedVersion candidate.status trail

/-- The state is a stack of fully gated promotions over `initialVersion`, given the calls that were
accepted. -/
structure FullyGated (initialVersion : String) (accepted : List EvolutionCall)
    (state : EvolutionState) : Prop where
  chain : VersionChain initialVersion state.inForce state.activeVersion
  distinct : (state.inForce.map (·.candidateId)).Nodup
  promoted : ∀ candidateId, (∃ candidate, state.candidates.lookup candidateId = some candidate ∧
    candidate.status = .promoted) ↔ candidateId ∈ state.inForce.map (·.candidateId)
  gated : ∀ record ∈ state.inForce, ∃ candidate,
    state.candidates.lookup record.candidateId = some candidate ∧ candidate.status = .promoted ∧
      candidate.baseVersion = record.previousVersion ∧ candidate.proposedVersion = record.version ∧
      candidate.HasPassed accepted ∧ candidate.Harmless

/-! ### Chains and lists in force -/

theorem versionChain_concat {a b : String} {records : List PromotionRecord} {record : PromotionRecord} :
    VersionChain a (records ++ [record]) b ↔
      VersionChain a records record.previousVersion ∧ record.version = b := by
  induction records generalizing a with
  | nil =>
      constructor
      · rintro ⟨hprevious, hversion⟩
        exact ⟨hprevious.symm, hversion⟩
      · rintro ⟨hprevious, hversion⟩
        exact ⟨hprevious.symm, hversion⟩
  | cons first records ih =>
      constructor
      · rintro ⟨hprevious, hrest⟩
        obtain ⟨hchain, hversion⟩ := ih.mp hrest
        exact ⟨⟨hprevious, hchain⟩, hversion⟩
      · rintro ⟨⟨hprevious, hchain⟩, hversion⟩
        exact ⟨hprevious, ih.mpr ⟨hchain, hversion⟩⟩

namespace EvolutionState

variable {state : EvolutionState} {a : String}

theorem inForce_concat {active : String} {table : Table EvolutionCandidate.candidateId}
    {record : PromotionRecord} (h : record.rolledBackAt = none) :
    (EvolutionState.mk active table (state.promotions ++ [record])).inForce =
      state.inForce ++ [record] := by
  rw [inForce, List.filter_append, List.filter_cons_of_pos (by simpa using h)]
  rfl

/-- A rollback takes the last promotion in force, because nothing after it promotes the active version. -/
theorem inForce_split {pre post : List PromotionRecord} {record : PromotionRecord}
    (hchain : VersionChain a state.inForce state.activeVersion)
    (hsplit : state.promotions = pre ++ record :: post)
    (hpromotes : EvolutionController.Promotes state.activeVersion record)
    (hlast : ∀ later ∈ post, ¬ EvolutionController.Promotes state.activeVersion later) :
    state.inForce = pre.filter (·.rolledBackAt = none) ++ [record] ∧
      post.filter (·.rolledBackAt = none) = [] := by
  have hpost : post.filter (·.rolledBackAt = none) = [] := by
    rcases List.eq_nil_or_concat (post.filter (·.rolledBackAt = none)) with hnil | ⟨before, later, heq⟩
    · exact hnil
    · rw [List.concat_eq_append] at heq
      have hmem : later ∈ post.filter (·.rolledBackAt = none) := by
        rw [heq]
        exact List.mem_concat_self
      obtain ⟨hlater, hforce⟩ := List.mem_filter.mp hmem
      have hinForce : state.inForce =
          (pre.filter (·.rolledBackAt = none) ++ record :: before) ++ [later] := by
        rw [inForce, hsplit, List.filter_append, List.filter_cons_of_pos (by simpa using hpromotes.2), heq]
        simp
      rw [hinForce] at hchain
      have hversion := (versionChain_concat.mp hchain).2
      exact absurd ⟨hversion, by simpa using hforce⟩ (hlast later hlater)
  refine ⟨?_, hpost⟩
  rw [inForce, hsplit, List.filter_append, List.filter_cons_of_pos (by simpa using hpromotes.2), hpost]

theorem inForce_rolled {active : String} {table : Table EvolutionCandidate.candidateId}
    {pre post : List PromotionRecord} {rolled : PromotionRecord} (h : rolled.rolledBackAt ≠ none)
    (hpost : post.filter (·.rolledBackAt = none) = []) :
    (EvolutionState.mk active table (pre ++ rolled :: post)).inForce =
      pre.filter (·.rolledBackAt = none) := by
  rw [inForce, List.filter_append, List.filter_cons_of_neg (by simpa using h), hpost, List.append_nil]

/-- What a step does to the promotions in force and to the active version. -/
theorem inForce_step {call : EvolutionCall} {state' : EvolutionState} (h : EvolutionStep state call state')
    (hchain : VersionChain a state.inForce state.activeVersion) :
    state'.inForce = state.inForce ∧ state'.activeVersion = state.activeVersion ∨
      (∃ record, state'.inForce = state.inForce ++ [record] ∧
        record.previousVersion = state.activeVersion ∧ record.version = state'.activeVersion ∧
        ∃ now promotedAt, call = .promote record.candidateId now promotedAt) ∨
      ∃ record, state.inForce = state'.inForce ++ [record] ∧
        record.previousVersion = state'.activeVersion ∧ ∃ reviewer reason now,
          call = .rollback reviewer reason now := by
  cases h with
  | init initialVersion => exact .inl ⟨rfl, rfl⟩
  | submit hstatus hnew => exact .inl ⟨rfl, rfl⟩
  | offlineGate hfound hstatus hpair => exact .inl ⟨rfl, rfl⟩
  | recordShadow hfound hstatus hpair => exact .inl ⟨rfl, rfl⟩
  | approve hfound hstatus hreviewer => exact .inl ⟨rfl, rfl⟩
  | promote hfound hstatus hbase hunused =>
      exact .inr (.inl ⟨_, inForce_concat rfl, rfl, rfl, _, _, rfl⟩)
  | @rollback reviewer reason now pre post record candidate hreviewer hsplit hpromotes hlast hfound hstatus =>
      obtain ⟨hforce, hpost⟩ := inForce_split hchain hsplit hpromotes hlast
      refine .inr (.inr ⟨record, ?_, rfl, _, _, _, rfl⟩)
      rw [hforce, inForce_rolled (Option.some_ne_none _) hpost]

theorem versionChain_step {call : EvolutionCall} {state' : EvolutionState}
    (h : EvolutionStep state call state') (hchain : VersionChain a state.inForce state.activeVersion) :
    VersionChain a state'.inForce state'.activeVersion := by
  rcases inForce_step h hchain with ⟨hforce, hactive⟩ | ⟨record, hforce, hprevious, hversion, _⟩ |
    ⟨record, hforce, hprevious, _⟩
  · rw [hforce, hactive]
    exact hchain
  · rw [hforce]
    refine versionChain_concat.mpr ⟨?_, hversion⟩
    rw [hprevious]
    exact hchain
  · rw [hforce] at hchain
    rw [← hprevious]
    exact (versionChain_concat.mp hchain).1

end EvolutionState

/-! ### The candidates of a state -/

/-- What the candidates of a state have behind them, and which of them belong to a promotion in force. -/
structure CandidatesGated (accepted : List EvolutionCall) (state : EvolutionState) : Prop where
  harmless : ∀ candidate ∈ state.candidates.rows, candidate.status ≠ .rejected → candidate.Harmless
  passed : ∀ candidate ∈ state.candidates.rows, candidate.status ≠ .rejected →
    candidate.status ≠ .rolledBack → candidate.HasPassed accepted
  promoted : ∀ candidate ∈ state.candidates.rows, candidate.status = .promoted →
    candidate.candidateId ∈ state.inForce.map (·.candidateId)
  distinct : (state.inForce.map (·.candidateId)).Nodup
  gated : ∀ record ∈ state.inForce, ∃ candidate,
    state.candidates.lookup record.candidateId = some candidate ∧ candidate.status = .promoted ∧
      candidate.baseVersion = record.previousVersion ∧ candidate.proposedVersion = record.version

theorem EvolutionCandidate.HasPassed.append {candidate : EvolutionCandidate} {accepted : List EvolutionCall}
    (h : candidate.HasPassed accepted) (call : EvolutionCall) : candidate.HasPassed (accepted ++ [call]) := by
  obtain ⟨trail, hsub, htrail⟩ := h
  exact ⟨trail, hsub.trans (List.sublist_append_left _ _), htrail⟩

theorem EvolutionController.harmless_of_rejectionReason {candidate : EvolutionCandidate}
    (h : rejectionReason candidate = "") : candidate.Harmless := by
  unfold rejectionReason at h
  by_cases hhard : candidate.diffs.any (·.target = .hardPolicy)
  · rw [if_pos hhard] at h
    exact absurd h (by decide)
  rw [if_neg hhard] at h
  by_cases hexpanded : candidate.diffs.any (·.permissionEffect = .expanded)
  · rw [if_pos hexpanded] at h
    exact absurd h (by decide)
  intro diff hdiff
  constructor
  · intro htarget
    exact hhard (List.any_eq_true.mpr ⟨diff, hdiff, by simpa using htarget⟩)
  · intro heffect
    exact hexpanded (List.any_eq_true.mpr ⟨diff, hdiff, by simpa using heffect⟩)

theorem EvolutionController.submitted_candidateId (candidate : EvolutionCandidate) (activeVersion : String)
    (now : DateTime) : (submitted candidate activeVersion now).candidateId = candidate.candidateId := by
  unfold submitted
  dsimp only
  split_ifs <;> rfl

/-- What `submit` stores is the candidate, or the candidate rejected. -/
theorem EvolutionController.submitted_cases (candidate : EvolutionCandidate) (activeVersion : String)
    (now : DateTime) :
    (submitted candidate activeVersion now = candidate ∧ candidate.Harmless) ∨
      (submitted candidate activeVersion now).status = .rejected := by
  unfold submitted
  by_cases hbase : candidate.baseVersion ≠ activeVersion
  · right
    rw [if_pos hbase, if_pos]
    intro h
    have := congrArg String.length h
    rw [String.length_append] at this
    exact absurd this (by simp)
  · rw [if_neg hbase]
    by_cases hreason : rejectionReason candidate = ""
    · left
      rw [if_neg (not_not.mpr hreason)]
      exact ⟨rfl, harmless_of_rejectionReason hreason⟩
    · right
      rw [if_pos hreason]

namespace CandidatesGated

variable {accepted : List EvolutionCall} {state : EvolutionState} {stored : EvolutionCandidate}

theorem harmless_upsert (h : CandidatesGated accepted state)
    (hstored : stored.status ≠ .rejected → stored.Harmless) :
    ∀ candidate ∈ (state.candidates.upsert stored).rows, candidate.status ≠ .rejected →
      candidate.Harmless := by
  intro candidate hmem hstatus
  rcases Table.mem_upsert hmem with rfl | ⟨hold, _⟩
  · exact hstored hstatus
  · exact h.harmless candidate hold hstatus

theorem passed_upsert (h : CandidatesGated accepted state) {call : EvolutionCall}
    (hstored : stored.status ≠ .rejected → stored.status ≠ .rolledBack →
      stored.HasPassed (accepted ++ [call])) :
    ∀ candidate ∈ (state.candidates.upsert stored).rows, candidate.status ≠ .rejected →
      candidate.status ≠ .rolledBack → candidate.HasPassed (accepted ++ [call]) := by
  intro candidate hmem hrejected hrolled
  rcases Table.mem_upsert hmem with rfl | ⟨hold, _⟩
  · exact hstored hrejected hrolled
  · exact (h.passed candidate hold hrejected hrolled).append call

/-- A candidate that belongs to no promotion in force is replaced by one that is not promoted. -/
theorem upsert (h : CandidatesGated accepted state) {call : EvolutionCall}
    (hold : ∀ candidate, state.candidates.lookup stored.candidateId = some candidate →
      candidate.status ≠ .promoted)
    (hstored : stored.status ≠ .promoted) (hharmless : stored.status ≠ .rejected → stored.Harmless)
    (hpassed : stored.status ≠ .rejected → stored.status ≠ .rolledBack →
      stored.HasPassed (accepted ++ [call])) :
    CandidatesGated (accepted ++ [call])
      { state with candidates := state.candidates.upsert stored } where
  harmless := h.harmless_upsert hharmless
  passed := h.passed_upsert hpassed
  promoted candidate hmem hstatus := by
    rcases Table.mem_upsert hmem with rfl | ⟨hmem, _⟩
    · exact absurd hstatus hstored
    · exact h.promoted candidate hmem hstatus
  distinct := h.distinct
  gated record hrecord := by
    obtain ⟨candidate, hfound, hstatus, hversions⟩ := h.gated record hrecord
    refine ⟨candidate, ?_, hstatus, hversions⟩
    have hne : record.candidateId ≠ stored.candidateId := by
      intro heq
      rw [heq] at hfound
      exact hold candidate hfound hstatus
    rw [← hfound]
    exact Table.lookup_upsert_ne _ _ hne

/-- A promoted candidate belongs to a new promotion in force. -/
theorem promote (h : CandidatesGated accepted state) {candidate : EvolutionCandidate} {candidateId : String}
    {now promotedAt : DateTime} (hfound : state.candidates.lookup candidateId = some candidate)
    (hstatus : candidate.status = .approved) (hbase : state.activeVersion = candidate.baseVersion) :
    CandidatesGated (accepted ++ [.promote candidateId now promotedAt])
      { activeVersion := candidate.proposedVersion
        candidates := state.candidates.upsert { candidate with status := .promoted, updatedAt := now }
        promotions := state.promotions ++ [
          { candidateId := candidateId, previousVersion := state.activeVersion,
            version := candidate.proposedVersion, promotedAt := promotedAt }] } := by
  have hmem := Table.mem_of_lookup hfound
  have hid := Table.key_of_lookup hfound
  have hrejected : candidate.status ≠ .rejected := by simp [hstatus]
  have hrolled : candidate.status ≠ .rolledBack := by simp [hstatus]
  obtain ⟨trail, hsub, htrail⟩ := h.passed candidate hmem hrejected hrolled
  rw [hstatus, hid] at htrail
  have hnew : candidateId ∉ state.inForce.map (·.candidateId) := by
    intro hin
    obtain ⟨record, hrecord, rfl⟩ := List.mem_map.mp hin
    obtain ⟨found, hfound', hpromoted, _⟩ := h.gated record hrecord
    obtain rfl := Option.some.inj (hfound.symm.trans hfound')
    rw [hstatus] at hpromoted
    cases hpromoted
  constructor
  · exact h.harmless_upsert (fun _ => h.harmless candidate hmem hrejected)
  · refine h.passed_upsert (fun _ _ => ⟨_, hsub.append (.refl _), ?_⟩)
    rw [← hid] at htrail ⊢
    exact .promoted htrail
  · intro promoted hpromoted hpromotedStatus
    rw [EvolutionState.inForce_concat rfl, List.map_append, List.mem_append]
    rcases Table.mem_upsert hpromoted with rfl | ⟨hold, _⟩
    · exact .inr (List.mem_singleton.mpr hid)
    · exact .inl (h.promoted promoted hold hpromotedStatus)
  · rw [EvolutionState.inForce_concat rfl, List.map_append, List.nodup_append]
    refine ⟨h.distinct, List.nodup_singleton _, ?_⟩
    rintro id hin _ hlast rfl
    rw [List.mem_singleton.mp hlast] at hin
    exact hnew hin
  · intro record hrecord
    rw [EvolutionState.inForce_concat rfl, List.mem_append] at hrecord
    rcases hrecord with hold | hlast
    · obtain ⟨found, hfound', hversions⟩ := h.gated record hold
      refine ⟨found, ?_, hversions⟩
      rw [← hfound']
      refine Table.lookup_upsert_ne _ _ ?_
      rintro heq
      exact hnew (List.mem_map.mpr ⟨record, hold, heq.trans hid⟩)
    · rw [List.mem_singleton.mp hlast]
      refine ⟨{ candidate with status := .promoted, updatedAt := now }, ?_, rfl, hbase.symm, rfl⟩
      rw [← hid]
      exact Table.lookup_upsert_self _ _

/-- The candidate of the last promotion in force is promoted no longer. -/
theorem rollback (h : CandidatesGated accepted state) {call : EvolutionCall} {record : PromotionRecord}
    {candidate : EvolutionCandidate} {now : DateTime} {state' : EvolutionState}
    (hforce : state.inForce = state'.inForce ++ [record])
    (hfound : state.candidates.lookup record.candidateId = some candidate)
    (hstatus : candidate.status = .promoted)
    (hcandidates : state'.candidates =
      state.candidates.upsert { candidate with status := .rolledBack, updatedAt := now }) :
    CandidatesGated (accepted ++ [call]) state' := by
  have hid := Table.key_of_lookup hfound
  have hdistinct := h.distinct
  rw [hforce, List.map_append, List.nodup_append] at hdistinct
  have hne : ∀ other ∈ state'.inForce, other.candidateId ≠ record.candidateId := by
    intro other hother
    exact hdistinct.2.2 _ (List.mem_map_of_mem hother) _ (List.mem_singleton_self _)
  constructor
  · rw [hcandidates]
    refine h.harmless_upsert (fun _ => h.harmless candidate (Table.mem_of_lookup hfound) ?_)
    simp [hstatus]
  · rw [hcandidates]
    exact h.passed_upsert (fun _ hrolled => absurd rfl hrolled)
  · rw [hcandidates]
    intro promoted hmem hpromoted
    rcases Table.mem_upsert hmem with rfl | ⟨hold, hother⟩
    · cases hpromoted
    · have hin := h.promoted promoted hold hpromoted
      rw [hforce, List.map_append, List.mem_append] at hin
      rcases hin with hin | hlast
      · exact hin
      · exact absurd ((List.mem_singleton.mp hlast).trans hid.symm) hother
  · exact hdistinct.1
  · intro other hother
    obtain ⟨found, hfound', hversions⟩ := h.gated other (by rw [hforce]; exact List.mem_append_left _ hother)
    refine ⟨found, ?_, hversions⟩
    rw [hcandidates, ← hfound']
    refine Table.lookup_upsert_ne _ _ ?_
    intro heq
    exact hne other hother (heq.trans hid)

theorem step (h : CandidatesGated accepted state) {initialVersion : String}
    (hchain : VersionChain initialVersion state.inForce state.activeVersion) {call : EvolutionCall}
    {state' : EvolutionState} (hstep : EvolutionStep state call state') :
    CandidatesGated (accepted ++ [call]) state' := by
  -- a candidate that moves from one gate to the next, or is rejected there
  have hmove : ∀ {candidateId : String} {candidate stored : EvolutionCandidate},
      state.candidates.lookup candidateId = some candidate → candidate.status ≠ .promoted →
      candidate.status ≠ .rejected → candidate.status ≠ .rolledBack → stored.status ≠ .promoted →
      stored.candidateId = candidate.candidateId → stored.diffs = candidate.diffs →
      (∀ trail, GateTrail candidate.candidateId candidate.baseVersion candidate.proposedVersion
        candidate.status trail → stored.status ≠ .rejected → GateTrail stored.candidateId
          stored.baseVersion stored.proposedVersion stored.status (trail ++ [call])) →
      CandidatesGated (accepted ++ [call]) { state with candidates := state.candidates.upsert stored } := by
    intro candidateId candidate stored hfound hpromoted hrejected hrolled hstored hid hdiffs htrail
    have hmem := Table.mem_of_lookup hfound
    have hkey := Table.key_of_lookup hfound
    refine h.upsert ?_ hstored ?_ ?_
    · intro found hfound'
      rw [hid, hkey, hfound] at hfound'
      obtain rfl := Option.some.inj hfound'
      exact hpromoted
    · intro _
      unfold EvolutionCandidate.Harmless
      rw [hdiffs]
      exact h.harmless candidate hmem hrejected
    · intro hkept _
      obtain ⟨trail, hsub, hcalls⟩ := h.passed candidate hmem hrejected hrolled
      exact ⟨_, hsub.append (.refl [call]), htrail trail hcalls hkept⟩
  cases hstep with
  | init initialVersion =>
      exact ⟨h.harmless, fun candidate hmem hrejected hrolled =>
        (h.passed candidate hmem hrejected hrolled).append _, h.promoted, h.distinct, h.gated⟩
  | @submit candidate now hstatus hnew =>
      rcases EvolutionController.submitted_cases candidate state.activeVersion now with
        ⟨hstored, hharmless⟩ | hrejected
      · rw [hstored]
        refine h.upsert ?_ (by simp [hstatus]) (fun _ => hharmless) (fun _ _ => ?_)
        · intro found hfound
          rw [hnew] at hfound
          cases hfound
        · refine ⟨_, List.sublist_append_right _ _, ?_⟩
          rw [hstatus]
          exact .submitted rfl rfl rfl
      · refine h.upsert ?_ (by simp [hrejected]) (absurd hrejected) (absurd hrejected)
        intro found hfound
        rw [EvolutionController.submitted_candidateId, hnew] at hfound
        cases hfound
  | @offlineGate candidateId report now candidate hfound hstatus hpair =>
      refine hmove hfound (by simp [hstatus]) (by simp [hstatus]) (by simp [hstatus]) ?_ rfl rfl ?_
      · dsimp only
        split <;> simp
      · intro trail htrail hkept
        have hpassed : report.passed = true := by
          by_contra hfailed
          exact hkept (if_neg hfailed)
        obtain ⟨hbase, hproposed⟩ := Prod.mk.inj hpair
        rw [hstatus, Table.key_of_lookup hfound] at htrail
        simp only [Table.key_of_lookup hfound, if_pos hpassed]
        exact .offlinePassed htrail hpassed hbase hproposed
  | @recordShadow candidateId result now candidate hfound hstatus hpair =>
      refine hmove hfound (by simp [hstatus]) (by simp [hstatus]) (by simp [hstatus]) ?_ rfl rfl ?_
      · dsimp only
        split <;> simp
      · intro trail htrail hkept
        have hpassed : result.passed = true := by
          by_contra hfailed
          exact hkept (if_neg hfailed)
        obtain ⟨hbase, hproposed⟩ := Prod.mk.inj hpair
        rw [hstatus, Table.key_of_lookup hfound] at htrail
        simp only [Table.key_of_lookup hfound, if_pos hpassed]
        exact .shadowPassed htrail hpassed hbase hproposed
  | @approve candidateId reviewer reason now candidate hfound hstatus hreviewer =>
      refine hmove hfound (by simp [hstatus]) (by simp [hstatus]) (by simp [hstatus]) (by simp) rfl rfl ?_
      intro trail htrail _
      rw [hstatus, Table.key_of_lookup hfound] at htrail
      simp only [Table.key_of_lookup hfound]
      exact .approved htrail hreviewer
  | promote hfound hstatus hbase hunused => exact h.promote hfound hstatus hbase
  | @rollback reviewer reason now pre post record candidate hreviewer hsplit hpromotes hlast hfound hstatus =>
      obtain ⟨hforce, hpost⟩ := EvolutionState.inForce_split hchain hsplit hpromotes hlast
      refine h.rollback ?_ hfound hstatus rfl
      rw [hforce, EvolutionState.inForce_rolled (Option.some_ne_none _) hpost]

/-- The two invariants together are the property. -/
theorem fullyGated (h : CandidatesGated accepted state) {initialVersion : String}
    (hchain : VersionChain initialVersion state.inForce state.activeVersion) :
    FullyGated initialVersion accepted state where
  chain := hchain
  distinct := h.distinct
  promoted candidateId := by
    constructor
    · rintro ⟨candidate, hfound, hstatus⟩
      rw [← Table.key_of_lookup hfound]
      exact h.promoted candidate (Table.mem_of_lookup hfound) hstatus
    · intro hin
      obtain ⟨record, hrecord, rfl⟩ := List.mem_map.mp hin
      obtain ⟨candidate, hfound, hstatus, _⟩ := h.gated record hrecord
      exact ⟨candidate, hfound, hstatus⟩
  gated record hrecord := by
    obtain ⟨candidate, hfound, hstatus, hbase, hproposed⟩ := h.gated record hrecord
    have hmem := Table.mem_of_lookup hfound
    have hrejected : candidate.status ≠ .rejected := by simp [hstatus]
    exact ⟨candidate, hfound, hstatus, hbase, hproposed,
      h.passed candidate hmem hrejected (by simp [hstatus]), h.harmless candidate hmem hrejected⟩

end CandidatesGated

/-! ### Sequences of calls -/

namespace EvolutionCall

/-- The lines after the call, whether it returned or raised. -/
def apply (call : EvolutionCall) (lines : List EvolutionLine) : List EvolutionLine :=
  finalState call.run lines

/-- Whether the call returns. -/
def returns (call : EvolutionCall) (lines : List EvolutionLine) : Bool :=
  match call.run lines with
  | .ok _ _ => true
  | .error _ _ => false

end EvolutionCall

namespace EvolutionController

/-- The lines of a new file. -/
def created (initialVersion : String) : List EvolutionLine :=
  [⟨"initialize", { activeVersion := initialVersion }⟩]

/-- The lines after the calls, on a new file. -/
def after (initialVersion : String) (calls : List EvolutionCall) : List EvolutionLine :=
  runAll EvolutionCall.apply (created initialVersion) calls

/-- Those of the calls that return, from `lines` on. -/
def accepted (lines : List EvolutionLine) : List EvolutionCall → List EvolutionCall
  | [] => []
  | call :: calls =>
      if call.returns lines then call :: accepted (call.apply lines) calls
      else accepted (call.apply lines) calls

variable {initialVersion : String} {calls : List EvolutionCall}

theorem after_concat (initialVersion : String) (calls : List EvolutionCall) (call : EvolutionCall) :
    after initialVersion (calls ++ [call]) = call.apply (after initialVersion calls) :=
  runAll_append _ calls [call]

theorem accepted_concat (lines : List EvolutionLine) (calls : List EvolutionCall) (call : EvolutionCall) :
    accepted lines (calls ++ [call]) = accepted lines calls ++
      if call.returns (runAll EvolutionCall.apply lines calls) then [call] else [] := by
  induction calls generalizing lines with
  | nil => rfl
  | cons first calls ih =>
      rw [List.cons_append, accepted, accepted, runAll, ih]
      by_cases hfirst : first.returns lines
      · rw [if_pos hfirst, if_pos hfirst, List.cons_append]
      · rw [if_neg hfirst, if_neg hfirst]

/-- A further call raises, and the lines are as they were, or it takes its step. -/
theorem after_cases (calls : List EvolutionCall) (call : EvolutionCall) :
    call.returns (after initialVersion calls) = false ∧
        after initialVersion (calls ++ [call]) = after initialVersion calls ∨
      call.returns (after initialVersion calls) = true ∧ ∀ state,
        current (after initialVersion calls) = some state →
          ∃ state', current (after initialVersion (calls ++ [call])) = some state' ∧
            EvolutionStep state call state' := by
  rw [after_concat]
  unfold EvolutionCall.returns EvolutionCall.apply finalState
  cases hrun : call.run (after initialVersion calls) with
  | ok u lines => exact .inr ⟨rfl, fun state hstate => EvolutionCall.run_step hstate hrun⟩
  | error e lines => exact .inl ⟨rfl, EvolutionCall.run_error hrun⟩

/-- After any calls the promotions in force are a chain, and their candidates have passed the gates. -/
theorem gated_after (initialVersion : String) (calls : List EvolutionCall) :
    ∃ state, current (after initialVersion calls) = some state ∧
      VersionChain initialVersion state.inForce state.activeVersion ∧
      CandidatesGated (accepted (created initialVersion) calls) state := by
  induction calls using List.reverseRecOn with
  | nil =>
      refine ⟨_, rfl, rfl, ?_⟩
      constructor
      · intro candidate hmem
        cases hmem
      · intro candidate hmem
        cases hmem
      · intro candidate hmem
        cases hmem
      · exact List.nodup_nil
      · intro record hmem
        cases hmem
  | append_singleton calls call ih =>
      obtain ⟨state, hstate, hchain, hgated⟩ := ih
      rw [accepted_concat]
      rcases after_cases calls call with ⟨hraises, hsame⟩ | ⟨hreturns, hstep⟩
      · have hnone : call.returns (runAll EvolutionCall.apply (created initialVersion) calls) = false := hraises
        rw [hsame, hnone]
        refine ⟨state, hstate, hchain, ?_⟩
        rw [if_neg Bool.false_ne_true, List.append_nil]
        exact hgated
      · have hsome : call.returns (runAll EvolutionCall.apply (created initialVersion) calls) = true := hreturns
        obtain ⟨state', hstate', htaken⟩ := hstep state hstate
        rw [hsome, if_pos rfl]
        exact ⟨state', hstate', EvolutionState.versionChain_step htaken hchain, hgated.step hchain htaken⟩

/-! ### What a rollback restores -/

/-- Among the calls is the promotion of `record`; the promotions in force before it were `earlier`, and
the active version that of its base. -/
def PushedAt (initialVersion : String) (calls : List EvolutionCall) (earlier : List PromotionRecord)
    (record : PromotionRecord) : Prop :=
  ∃ pre now promotedAt post, calls = pre ++ .promote record.candidateId now promotedAt :: post ∧
    (EvolutionCall.promote record.candidateId now promotedAt).returns (after initialVersion pre) = true ∧
    ∃ state, current (after initialVersion pre) = some state ∧ state.inForce = earlier ∧
      state.activeVersion = record.previousVersion

theorem PushedAt.append {earlier : List PromotionRecord} {record : PromotionRecord}
    (h : PushedAt initialVersion calls earlier record) (call : EvolutionCall) :
    PushedAt initialVersion (calls ++ [call]) earlier record := by
  obtain ⟨pre, now, promotedAt, post, rfl, hpushed⟩ := h
  exact ⟨pre, now, promotedAt, post ++ [call], by rw [List.append_assoc, List.cons_append], hpushed⟩

/-- Each promotion in force was pushed on those before it. -/
theorem stacked_after (initialVersion : String) (calls : List EvolutionCall) {state : EvolutionState}
    (hstate : current (after initialVersion calls) = some state) {earlier : List PromotionRecord}
    {record : PromotionRecord} (hpre : earlier ++ [record] <+: state.inForce) :
    PushedAt initialVersion calls earlier record := by
  induction calls using List.reverseRecOn generalizing state earlier record with
  | nil =>
      cases hstate
      exact absurd (List.prefix_nil.mp hpre) (List.append_ne_nil_of_right_ne_nil _ (List.cons_ne_nil _ _))
  | append_singleton calls call ih =>
      obtain ⟨before, hbefore, hchain, _⟩ := gated_after initialVersion calls
      rcases after_cases calls call with ⟨_, hsame⟩ | ⟨hreturns, hstep⟩
      · rw [hsame] at hstate
        exact (ih hstate hpre).append call
      · obtain ⟨state', hstate', htaken⟩ := hstep before hbefore
        obtain rfl := Option.some.inj (hstate.symm.trans hstate')
        rcases EvolutionState.inForce_step htaken hchain with ⟨hforce, _⟩ |
          ⟨pushed, hforce, hprevious, _, now, promotedAt, rfl⟩ | ⟨popped, hforce, _⟩
        · rw [hforce] at hpre
          exact (ih hbefore hpre).append call
        · rw [hforce] at hpre
          rcases List.prefix_concat_iff.mp hpre with heq | hshorter
          · obtain ⟨rfl, hlast⟩ := List.append_inj' heq rfl
            obtain rfl := List.singleton_inj.mp hlast
            exact ⟨calls, now, promotedAt, [], rfl, hreturns, before, hbefore, rfl, hprevious.symm⟩
          · exact (ih hbefore hshorter).append _
        · refine (ih hbefore ?_).append call
          rw [hforce]
          exact hpre.trans (List.prefix_append _ _)

/-- A rollback takes off the last promotion in force, and restores the active version and the promotions
in force of the moment before it. -/
theorem rollback_restores {state : EvolutionState} (hstate : current (after initialVersion calls) = some state)
    {reviewer reason : String} {now : DateTime} {result : RollbackResult} {lines : List EvolutionLine}
    (h : rollback reviewer reason now (after initialVersion calls) = .ok result lines) :
    ∃ state' record, current lines = some state' ∧ state.inForce = state'.inForce ++ [record] ∧
      state'.activeVersion = record.previousVersion ∧
      PushedAt initialVersion calls state'.inForce record := by
  obtain ⟨before, state', hbefore, hstate', hstep⟩ := rollback_step h
  obtain rfl := Option.some.inj (hstate.symm.trans hbefore)
  obtain ⟨state₁, hstate₁, hchain, _⟩ := gated_after initialVersion calls
  obtain rfl := Option.some.inj (hstate.symm.trans hstate₁)
  cases hstep with
  | @rollback _ _ _ pre post record candidate hreviewer hsplit hpromotes hlast hfound hstatus =>
      obtain ⟨hforce, hpost⟩ := EvolutionState.inForce_split hchain hsplit hpromotes hlast
      refine ⟨_, record, hstate', ?_, rfl, ?_⟩
      · rw [hforce, EvolutionState.inForce_rolled (Option.some_ne_none _) hpost]
      · refine stacked_after initialVersion calls hstate ?_
        rw [hforce, EvolutionState.inForce_rolled (Option.some_ne_none _) hpost]

end EvolutionController

open EvolutionController in
/-- **The release gate.**  After any calls on a new file the promotions in force are a chain from the
initial version to the active one, by candidates that have passed every gate; a call that raises changes
nothing, and a rollback restores what was there before the last promotion in force. -/
theorem evolution_gated (initialVersion : String) (calls : List EvolutionCall) :
    ∃ state, current (after initialVersion calls) = some state ∧
      FullyGated initialVersion (accepted (created initialVersion) calls) state ∧
      (∀ call e lines, EvolutionCall.run call (after initialVersion calls) = .error e lines →
        lines = after initialVersion calls) ∧
      ∀ reviewer reason now result lines,
        rollback reviewer reason now (after initialVersion calls) = .ok result lines →
          ∃ state' record, current lines = some state' ∧ state.inForce = state'.inForce ++ [record] ∧
            state'.activeVersion = record.previousVersion ∧
            PushedAt initialVersion calls state'.inForce record := by
  obtain ⟨state, hstate, hchain, hgated⟩ := gated_after initialVersion calls
  refine ⟨state, hstate, hgated.fullyGated hchain, ?_, ?_⟩
  · intro call e lines h
    exact EvolutionCall.run_error h
  · intro reviewer reason now result lines h
    exact rollback_restores hstate h

end CrazyHarness
