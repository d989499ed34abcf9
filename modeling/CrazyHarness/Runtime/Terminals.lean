import CrazyHarness.Runtime.Cancellation
import CrazyHarness.Store.Runs
import CrazyHarness.Store.Commands

/-! # The terminal facts of a run

The log of a run is replayed by `statusOf`, and the projection follows it (`Followed`).

* `oneEnd_append_other`, `oneEnd_append_fact`: what one event does to the ends of a run.
* `OneTerminalFact`: the run has at most one end, and its projection shows it. -/

namespace CrazyHarness

open Lib RuntimeM

/-! ### The status that a log gives -/

/-- The status that a terminal fact stands for. -/
def outcomeOf (type : String) : Option String :=
  [("run.succeeded", "succeeded"), ("run.failed", "failed"), ("run.cancelled", "cancelled")].lookup
    type

/-- One event of the log, for the status of a run. -/
def statusStep (runId : String) (status : Option Json) (e : Event) : Option Json :=
  if e.runId = runId then
    match status with
    | none => if e.type = "run.created" then some (.str "running") else none
    | some s => statusAfter e.type (some s)
  else status

/-- The status of a run after a log. -/
def statusOf (log : List Event) (runId : String) : Option Json := log.foldl (statusStep runId) none

/-- The terminal facts of a run. -/
def terminalFacts (log : List Event) (runId : String) : List Event :=
  log.filter (fun e => e.runId = runId ∧ (outcomeOf e.type).isSome)

/-- A run with this status can still come to an end of this type: it is known, it has no end
yet, and one that is being cancelled can only be cancelled. -/
def OpenTo (status : Option Json) (type : String) : Prop :=
  status.isSome ∧ runTerminal status = false ∧
    (type ≠ "run.cancelled" → status ≠ some (.str "cancelling"))

section replay

variable {log : List Event} {e : Event} {runId : String} {status : Option Json}

theorem statusOf_append : statusOf (log ++ [e]) runId = statusStep runId (statusOf log runId) e := by
  rw [statusOf, List.foldl_append]
  rfl

theorem terminalFacts_append : terminalFacts (log ++ [e]) runId = terminalFacts log runId ++
    if e.runId = runId ∧ (outcomeOf e.type).isSome then [e] else [] := by
  rw [terminalFacts, List.filter_append]
  congr 1
  by_cases h : e.runId = runId ∧ (outcomeOf e.type).isSome = true
  · rw [if_pos h, List.filter_singleton, decide_eq_true h]
    rfl
  · rw [if_neg h, List.filter_singleton, decide_eq_false h]
    rfl

theorem outcomeOf_cases {type : String} (h : (outcomeOf type).isSome) :
    type = "run.succeeded" ∧ outcomeOf type = some "succeeded" ∨
      type = "run.failed" ∧ outcomeOf type = some "failed" ∨
      type = "run.cancelled" ∧ outcomeOf type = some "cancelled" := by
  by_cases hs : type = "run.succeeded"
  · exact .inl ⟨hs, by rw [hs]; rfl⟩
  · by_cases hf : type = "run.failed"
    · exact .inr (.inl ⟨hf, by rw [hf]; rfl⟩)
    · by_cases hc : type = "run.cancelled"
      · exact .inr (.inr ⟨hc, by rw [hc]; rfl⟩)
      · have hs' : (type == "run.succeeded") = false := by simp [hs]
        have hf' : (type == "run.failed") = false := by simp [hf]
        have hc' : (type == "run.cancelled") = false := by simp [hc]
        simp [outcomeOf, List.lookup, hs', hf', hc'] at h

/-- A status without end stays one, unless a terminal fact comes. -/
theorem runTerminal_statusStep (h : runTerminal (statusStep runId status e))
    (hother : ¬ (e.runId = runId ∧ (outcomeOf e.type).isSome)) : statusStep runId status e = status := by
  unfold statusStep at h ⊢
  split at h
  next hrun =>
    rw [if_pos hrun]
    have hnone : outcomeOf e.type = none := by
      rw [← Option.not_isSome_iff_eq_none]
      exact fun hsome => hother ⟨hrun, hsome⟩
    cases status with
    | none =>
        dsimp only at h
        split at h <;> simp [runTerminal] at h
    | some s =>
        have hs : e.type ≠ "run.succeeded" := by
          intro heq
          rw [heq] at hnone
          cases hnone
        have hf : e.type ≠ "run.failed" := by
          intro heq
          rw [heq] at hnone
          cases hnone
        have hc : e.type ≠ "run.cancelled" := by
          intro heq
          rw [heq] at hnone
          cases hnone
        dsimp only at h ⊢
        unfold statusAfter at h ⊢
        simp only [hs, hf, hc, false_and, if_false] at h ⊢
        split_ifs at h ⊢ with hpaused hrequested
        · simp [runTerminal] at h
        · simp [runTerminal] at h
        · rfl
  next hrun => rw [if_neg hrun]

/-- An end is kept. -/
theorem statusStep_of_terminal (h : runTerminal status) : statusStep runId status e = status := by
  unfold statusStep
  split
  · cases status with
    | none => simp [runTerminal] at h
    | some s => simp [statusAfter, h]
  · rfl

/-- A terminal fact shows in the status exactly when the run was open to it or had this end. -/
theorem statusStep_terminal (hrun : e.runId = runId) (hterminal : (outcomeOf e.type).isSome)
    (hlive : runTerminal status = false) :
    statusStep runId status e = (outcomeOf e.type).map Json.str ↔ OpenTo status e.type := by
  unfold statusStep OpenTo
  rw [if_pos hrun]
  cases status with
  | none =>
      rcases outcomeOf_cases hterminal with ⟨htype, hout⟩ | ⟨htype, hout⟩ | ⟨htype, hout⟩ <;>
        rw [hout] <;> simp [htype]
  | some s =>
      rcases outcomeOf_cases hterminal with ⟨htype, hout⟩ | ⟨htype, hout⟩ | ⟨htype, hout⟩
      · rw [hout]
        by_cases hs : s = .str "cancelling"
        · simp [htype, statusAfter, hs]
        · simp [htype, statusAfter, hlive, hs]
      · rw [hout]
        by_cases hs : s = .str "cancelling"
        · simp [htype, statusAfter, hs]
        · simp [htype, statusAfter, hlive, hs]
      · rw [hout]
        simp [htype, statusAfter, hlive]

theorem runTerminal_outcome {type : String} (h : (outcomeOf type).isSome) :
    runTerminal ((outcomeOf type).map Json.str) := by
  rcases outcomeOf_cases h with ⟨-, hout⟩ | ⟨-, hout⟩ | ⟨-, hout⟩ <;> rw [hout] <;> decide

/-- Only terminal facts end a run. -/
theorem runTerminal_of_facts_nil (h : terminalFacts log runId = []) :
    runTerminal (statusOf log runId) = false := by
  induction log using List.reverseRecOn with
  | nil => rfl
  | append_singleton log e ih =>
      rw [terminalFacts_append, List.append_eq_nil_iff] at h
      obtain ⟨hlog, he⟩ := h
      have hother : ¬ (e.runId = runId ∧ (outcomeOf e.type).isSome) := by
        intro hfact
        rw [if_pos hfact] at he
        cases he
      rw [statusOf_append]
      by_contra hterminal
      rw [Bool.not_eq_false] at hterminal
      have hsame := runTerminal_statusStep hterminal hother
      rw [hsame, ih hlog] at hterminal
      cases hterminal

/-- A log has one terminal fact for a run, and its status is that end. -/
def OneEnd (log : List Event) (runId : String) : Prop :=
  (terminalFacts log runId).length ≤ 1 ∧
    ∀ e ∈ terminalFacts log runId, statusOf log runId = (outcomeOf e.type).map Json.str

theorem isSome_of_mem_facts (h : e ∈ terminalFacts log runId) : (outcomeOf e.type).isSome := by
  have := (List.mem_filter.mp h).2
  simp only [decide_eq_true_eq] at this
  exact this.2

/-- An event that is no terminal fact of the run changes nothing of this. -/
theorem oneEnd_append_other (hother : ¬ (e.runId = runId ∧ (outcomeOf e.type).isSome)) :
    OneEnd (log ++ [e]) runId ↔ OneEnd log runId := by
  have hfacts : terminalFacts (log ++ [e]) runId = terminalFacts log runId := by
    rw [terminalFacts_append, if_neg hother, List.append_nil]
  unfold OneEnd
  rw [hfacts, statusOf_append]
  refine and_congr_right (fun _ => forall₂_congr (fun f hf => ?_))
  have hend := runTerminal_outcome (isSome_of_mem_facts hf)
  constructor
  · intro h
    rw [← h] at hend ⊢
    exact (runTerminal_statusStep hend hother).symm
  · intro h
    rw [← h] at hend ⊢
    exact statusStep_of_terminal hend

/-- A terminal fact comes first, and finds the run open. -/
theorem oneEnd_append_fact (hrun : e.runId = runId) (hterminal : (outcomeOf e.type).isSome) :
    OneEnd (log ++ [e]) runId ↔ OneEnd log runId ∧ OpenTo (statusOf log runId) e.type := by
  have hfacts : terminalFacts (log ++ [e]) runId = terminalFacts log runId ++ [e] := by
    rw [terminalFacts_append, if_pos ⟨hrun, hterminal⟩]
  constructor
  · rintro ⟨hlength, hstatus⟩
    rw [hfacts, List.length_append, List.length_singleton] at hlength
    have hnil : terminalFacts log runId = [] := List.eq_nil_of_length_eq_zero (by omega)
    have hlive := runTerminal_of_facts_nil hnil
    have hlast := hstatus e (by rw [hfacts]; exact List.mem_append_right _ (List.mem_singleton_self e))
    rw [statusOf_append] at hlast
    refine ⟨⟨by rw [hnil]; exact Nat.zero_le 1, ?_⟩, (statusStep_terminal hrun hterminal hlive).mp hlast⟩
    intro f hf
    rw [hnil] at hf
    cases hf
  · rintro ⟨⟨-, hstatus⟩, hopen⟩
    have hlive := hopen.2.1
    have hnil : terminalFacts log runId = [] := by
      rw [List.eq_nil_iff_forall_not_mem]
      intro f hf
      have hend := runTerminal_outcome (isSome_of_mem_facts hf)
      rw [← hstatus f hf, hlive] at hend
      cases hend
    unfold OneEnd
    rw [hfacts, hnil]
    refine ⟨le_rfl, ?_⟩
    intro f hf
    rw [List.nil_append, List.mem_singleton] at hf
    subst hf
    rw [statusOf_append]
    exact (statusStep_terminal hrun hterminal hlive).mpr hopen

end replay

/-! ### The projection follows the log -/

/-- The projections of the runs are those that the log gives. -/
structure Followed (db : Database) : Prop where
  known : ∀ runId, (db.loadProjection "run" runId).isSome → (db.runStatus runId).isSome
  status : ∀ runId, db.runStatus runId = statusOf db.events.rows runId

theorem statusAfter_isSome (type : String) (s : Json) : (statusAfter type (some s)).isSome := by
  unfold statusAfter
  dsimp only
  split_ifs <;> rfl

section followed

variable {db db' : Database} {e : Event}

theorem Followed.sameLog (h : Followed db) (hs : db.SameLog db') : Followed db' where
  known := by
    intro runId hrun
    rw [hs.loadProjection] at hrun
    have := h.known runId hrun
    rwa [Database.runStatus, ← hs.loadProjection] at this
  status := by
    intro runId
    rw [Database.runStatus, hs.loadProjection, hs.events]
    exact h.status runId

theorem Followed.newEvent (h : Followed db) (he : db.NewEvent e db') : Followed db' where
  known := by
    intro runId hrun
    obtain ⟨r, hr, hload⟩ := he.run
    rw [he.runStatus runId]
    rw [hload] at hrun
    by_cases heq : runId = e.runId
    · subst heq
      rw [if_pos rfl] at hrun ⊢
      cases hold : db.loadProjection "run" e.runId with
      | none =>
          rcases nextRun_cases hr with ⟨-, -, rfl⟩ | ⟨run, count, hcases, -⟩
          · rw [hold] at hrun
            cases hrun
          · rcases hcases with hcases | ⟨-, hcreated, -⟩
            · rw [hold] at hcases
              cases hcases
            · dsimp only
              rw [if_pos hcreated]
              rfl
      | some run =>
          have hsome := h.known e.runId (by rw [hold]; rfl)
          rw [Database.runStatus, hold, Option.bind_some] at hsome
          obtain ⟨s, hs⟩ := Option.isSome_iff_exists.mp hsome
          dsimp only
          rw [hs]
          exact statusAfter_isSome e.type s
    · rw [if_neg heq] at hrun ⊢
      exact h.known runId hrun
  status := by
    intro runId
    rw [he.runStatus runId, he.rows, statusOf_append, ← h.status runId]
    unfold statusStep
    by_cases heq : runId = e.runId
    · subst heq
      rw [if_pos rfl, if_pos rfl]
      cases hold : db.loadProjection "run" e.runId with
      | none => simp [Database.runStatus, hold]
      | some run =>
          have hsome := h.known e.runId (by rw [hold]; rfl)
          rw [Database.runStatus, hold, Option.bind_some] at hsome ⊢
          obtain ⟨s, hs⟩ := Option.isSome_iff_exists.mp hsome
          dsimp only
          rw [hs]
    · rw [if_neg heq, if_neg (fun h' => heq h'.symm)]

theorem Followed.wrote {es : List Event} (h : Followed db) (hw : db.Wrote es db') : Followed db' :=
  hw.preserves (fun _ _ hs h => h.sameLog hs) (fun _ _ _ he _ h => h.newEvent he) h

end followed

/-! ### One terminal fact -/

/-- The run has at most one terminal fact, and its projection is at that end. -/
def OneTerminalFact (db : Database) (runId : String) : Prop :=
  (terminalFacts db.events.rows runId).length ≤ 1 ∧
    ∀ e ∈ terminalFacts db.events.rows runId, db.runStatus runId = (outcomeOf e.type).map Json.str

instance (db : Database) (runId : String) : Decidable (OneTerminalFact db runId) :=
  inferInstanceAs (Decidable (_ ≤ 1 ∧ ∀ e ∈ terminalFacts db.events.rows runId, _))

/-! ### Runs -/

/-- Nothing has been written yet. -/
def emptyWorld : Pool (withStore residentInterface) Unit ResidentWorld :=
  ⟨{ store := ⟨.initial, 0⟩ }, [], []⟩

/-- The run of a task for the generalist. -/
def generalistRun : Event where
  id := "run-1"
  runId := "r1"
  taskId := "t1"
  type := "run.created"
  source := "runtime"
  payload := []
  createdAt := twelve

end CrazyHarness
