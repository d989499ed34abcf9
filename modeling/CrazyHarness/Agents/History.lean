import Mathlib
import CrazyHarness.Core.Events
import CrazyHarness.Agents.State

/-! # What a loop reads from its log

The static methods of `AgentLoop` that recompute its state from the events of its task: the
open turn, the unresolved operation, the active wait.

* `turnNumber_turnId`: the identifier of a turn gives its number back.
* `recoverableTurn_eq`: the recoverable turn with the greatest number is the one resumed. -/

namespace CrazyHarness

open Lib

/-! ### Turns -/

/-- `str(event.payload.get("turn_id"))`. -/
def Event.turn (e : Event) : String := (e.payload.getD "turn_id" .null).pyStr

/-- `event.payload.get("operation_id")`. -/
def Event.operation (e : Event) : Json := e.payload.getD "operation_id" .null

/-- `_turn_number`: the number after the last underscore, zero when there is none. -/
def turnNumber (turnId : String) : ℤ :=
  (intOfText (turnId.toList.rtakeWhile (· ≠ '_'))).getD 0

/-- `f"turn_{n}"`. -/
def turnId (n : ℤ) : String := "turn_" ++ n.repr

/-- The turns of a log, later ones first. -/
def turnIds (events : List Event) : List String :=
  ((events.filter (fun e => (e.get? "turn_id").isSome)).map Event.turn).dedup.insertionSort
    (fun a b => turnNumber b ≤ turnNumber a)

/-- The events of a turn. -/
def turnEvents (events : List Event) (turn : String) : List Event :=
  events.filter (fun e => e.turn = turn)

/-- `_last_of_type`. -/
def lastOfType (events : List Event) (type : String) : Option Event :=
  events.reverse.find? (fun e => e.type = type)

/-- `_TURN_COMPLETED_EVENTS`. -/
def turnCompletedEvents : List String :=
  ["model.validation_failed", "agent.action.denied", "tool.completed", "tool.failed",
    "agent.stopped", "agent.submitted", "agent.waiting", "agent.nudged", "agent.continued",
    "a2a.message.sent", "a2a.message.denied", "artifact.created", "operation.unknown"]

/-- The turn has an outcome. -/
def turnClosed (events : List Event) (turn : String) : Bool :=
  (turnEvents events turn).any (fun e => e.type ∈ turnCompletedEvents)

/-- The turn has a request or a response and no outcome. -/
def recoverable (events : List Event) (turn : String) : Bool :=
  ((lastOfType (turnEvents events turn) "model.requested").isSome ||
    (lastOfType (turnEvents events turn) "model.completed").isSome) && !turnClosed events turn

/-- `_recoverable_turn`. -/
def recoverableTurn (events : List Event) : String × List Event :=
  match (turnIds events).find? (fun turn => recoverable events turn) with
  | some turn => (turn, turnEvents events turn)
  | none => ("", [])

/-- `_next_turn_id`. -/
def nextTurnId (events : List Event) : String :=
  turnId (((turnIds events).map turnNumber).max?.getD 0 + 1)

/-! ### Operations -/

/-- The events that end an operation. -/
def operationEnds : List String :=
  ["operation.completed", "operation.failed", "operation.unknown", "operation.reconciled"]

/-- `terminal_ids`. -/
def endedOperations (events : List Event) : List Json :=
  (events.filter (fun e => e.type ∈ operationEnds)).map Event.operation

/-- `_unresolved_operation`. -/
def unresolvedOperation (events : List Event) : Option Event :=
  events.reverse.find?
    (fun e => e.type = "operation.started" ∧ e.operation ∉ endedOperations events)

/-- The operations of the events of one type. -/
def operationsOf (events : List Event) (type : String) : List Json :=
  (events.filter (fun e => e.type = type)).map Event.operation

/-- `_has_unresolved_unknown`. -/
def HasUnresolvedUnknown (events : List Event) : Prop :=
  ∃ o ∈ operationsOf events "operation.unknown", o ∉ operationsOf events "operation.reconciled"

instance (events : List Event) : Decidable (HasUnresolvedUnknown events) :=
  inferInstanceAs (Decidable (∃ o ∈ operationsOf events "operation.unknown", _))

/-! ### Waits and ends -/

/-- The last wait with what came after it. -/
def lastWait : List Event → Option (Event × List Event)
  | [] => none
  | e :: es =>
      match lastWait es with
      | some w => some w
      | none => if e.type = "agent.waiting" then some (e, es) else none

/-- `payload.get("correlation_id")`, with nothing for `None`. -/
def Event.correlation (e : Event) : Option Json := (e.get? "correlation_id").filter (· ≠ .null)

/-- The events that end a correlated wait. -/
def wakeEvents : List String := ["a2a.peer.responded", "approval.decided", "runtime.wait.timed_out"]

/-- `_has_active_wait`. -/
def HasActiveWait (events : List Event) : Prop :=
  match lastWait events with
  | none => False
  | some (waiting, later) =>
      match waiting.correlation with
      | none => later = []
      | some correlation =>
          ∀ e ∈ later, ¬ (e.correlation = some correlation ∧ e.type ∈ wakeEvents)

instance (events : List Event) : Decidable (HasActiveWait events) := by
  unfold HasActiveWait
  split
  · exact inferInstance
  · split <;> infer_instance

/-- `_is_terminal`. -/
def IsTerminal (events : List Event) : Prop :=
  ∃ e ∈ events, e.type ∈ ["agent.stopped", "agent.submitted", "agent.failed"]

instance (events : List Event) : Decidable (IsTerminal events) :=
  inferInstanceAs (Decidable (∃ e ∈ events, _))

/-- The run has ended, waits for a reconciliation or waits for an event. -/
def AtRest (events : List Event) : Prop :=
  IsTerminal events ∨ HasUnresolvedUnknown events ∨ HasActiveWait events

instance (events : List Event) : Decidable (AtRest events) :=
  inferInstanceAs (Decidable (_ ∨ _ ∨ _))

/-! ### Phases -/

/-- The phase an event records. -/
def Event.phase (e : Event) : Option LoopPhase :=
  (e.payload.getD "phase" .null).asStr.bind LoopPhase.ofValue

/-- `_last_phase_event`. -/
def lastPhaseEvent (events : List Event) (turn : String) : Option Event :=
  events.reverse.find? (fun e => e.type = "loop.phase.changed" ∧ e.turn = turn)

/-! ### Numbers of turns -/

theorem isDigit_of_mem_toDigits {n : ℕ} {c : Char} (hc : c ∈ Nat.toDigits 10 n) : c.isDigit = true :=
  Nat.isDigit_of_mem_toDigits (by omega) (by omega) hc

theorem not_mem_toDigits {n : ℕ} {c : Char} (h : c.isDigit = false) : c ∉ Nat.toDigits 10 n := by
  intro hc
  rw [isDigit_of_mem_toDigits hc] at h
  cases h

theorem toNat_of_isDigit {c : Char} (h : c.isDigit = true) : 48 ≤ c.toNat ∧ c.toNat ≤ 57 := by
  simpa [Char.isDigit, UInt32.le_iff_toNat_le] using h

theorem isBlank_of_isDigit {c : Char} (h : c.isDigit = true) : isBlank c = false := by
  have hc := toNat_of_isDigit h
  simp only [isBlank, List.mem_cons, List.not_mem_nil, or_false, Bool.or_eq_false_iff, decide_eq_false_iff_not,
    Bool.and_eq_false_iff]
  omega

theorem decimalDigit_of_isDigit {c : Char} (h : c.isDigit = true) : decimalDigit c = some (c.toNat - 48) := by
  have hc := toNat_of_isDigit h
  have hblock : 48 ≤ c.toNat ∧ c.toNat < 48 + 10 := by omega
  simp [decimalDigit, digitBlocks, hblock]

/-- The digits of ASCII are read one by one. -/
theorem numeralDigits_of_isDigit {c : Char} {cs : List Char} (h : ∀ d ∈ c :: cs, d.isDigit = true) :
    numeralDigits (c :: cs) = some ((c :: cs).map (fun d => d.toNat - 48)) := by
  induction cs generalizing c with
  | nil =>
      rw [numeralDigits, decimalDigit_of_isDigit (h c List.mem_cons_self)]
      rfl
  | cons d cs ih =>
      have hd : d ≠ '_' := by
        rintro rfl
        exact absurd (h '_' (by simp)) (by decide)
      rw [numeralDigits, decimalDigit_of_isDigit (h c List.mem_cons_self),
        ih (fun d hd => h d (List.mem_cons_of_mem _ hd))]
      · rfl
      · simp
      · rintro _ heq
        exact hd (List.cons.inj heq).1

theorem numeralDigits_toDigits (n : ℕ) : ∃ ds, numeralDigits (Nat.toDigits 10 n) = some ds ∧
    ds.foldl (fun value d => 10 * value + d) 0 = n := by
  cases hdigits : Nat.toDigits 10 n with
  | nil => exact absurd hdigits Nat.toDigits_ne_nil
  | cons c cs =>
      refine ⟨_, numeralDigits_of_isDigit (fun d hd => isDigit_of_mem_toDigits (hdigits ▸ hd)), ?_⟩
      have hvalue := Nat.ofDigitChars_ten_toDigits (n := n)
      rw [hdigits] at hvalue
      rw [List.foldl_map]
      exact hvalue

/-- No character of the text of a number is an underscore or a blank. -/
theorem toList_repr_clean (n : ℤ) {c : Char} (hc : c ∈ n.repr.toList) : c ≠ '_' ∧ isBlank c = false := by
  have hdigit : ∀ {m : ℕ}, c ∈ Nat.toDigits 10 m → c ≠ '_' ∧ isBlank c = false := by
    intro m hm
    have hc := isDigit_of_mem_toDigits hm
    refine ⟨?_, isBlank_of_isDigit hc⟩
    rintro rfl
    exact absurd hc (by decide)
  cases n with
  | ofNat m =>
      rw [show (Int.ofNat m).repr = m.repr from rfl, Nat.toList_repr] at hc
      exact hdigit hc
  | negSucc m =>
      rw [show (Int.negSucc m).repr = "-" ++ (m + 1).repr from rfl, String.toList_append,
        Nat.toList_repr] at hc
      rcases List.mem_append.mp hc with hc | hc
      · obtain rfl := List.mem_singleton.mp hc
        decide
      · exact hdigit hc

/-- A text without blanks is read as it is. -/
theorem numeral_of_clean {cs : List Char} (h : ∀ c ∈ cs, isBlank c = false) :
    numeral cs = (numeralDigits (splitSign cs).2).map ((splitSign cs).1, ·) := by
  have hdrop : ∀ xs : List Char, (∀ c ∈ xs, isBlank c = false) → xs.dropWhile isBlank = xs := by
    intro xs hxs
    cases xs with
    | nil => rfl
    | cons x xs => rw [List.dropWhile_cons_of_neg (by simp [hxs x List.mem_cons_self])]
  have hback : cs.reverse.dropWhile isBlank = cs.reverse :=
    hdrop cs.reverse (fun c hc => h c (List.mem_reverse.mp hc))
  rw [numeral, hdrop cs h, hback, List.reverse_reverse]

theorem intOfText_repr (n : ℤ) : intOfText n.repr.toList = some n := by
  have hnumeral := numeral_of_clean (fun c hc => (toList_repr_clean n hc).2)
  cases n with
  | ofNat m =>
      rw [show (Int.ofNat m).repr = m.repr from rfl, Nat.toList_repr] at hnumeral ⊢
      have hsign : splitSign (Nat.toDigits 10 m) = (false, Nat.toDigits 10 m) := by
        unfold splitSign
        split
        next heq => exact absurd (heq ▸ List.mem_cons_self) (not_mem_toDigits (n := m) (c := '-') (by decide))
        next heq => exact absurd (heq ▸ List.mem_cons_self) (not_mem_toDigits (n := m) (c := '+') (by decide))
        next => rfl
      obtain ⟨ds, hds, hvalue⟩ := numeralDigits_toDigits m
      rw [intOfText, hnumeral, hsign, hds]
      simp [numeralValue, hvalue]
  | negSucc m =>
      rw [show (Int.negSucc m).repr = "-" ++ (m + 1).repr from rfl, String.toList_append,
        Nat.toList_repr] at hnumeral ⊢
      obtain ⟨ds, hds, hvalue⟩ := numeralDigits_toDigits (m + 1)
      have hsign : splitSign ("-".toList ++ Nat.toDigits 10 (m + 1)) = (true, Nat.toDigits 10 (m + 1)) := rfl
      rw [intOfText, hnumeral, hsign, hds]
      simp [numeralValue, hvalue, Int.negSucc_eq]

theorem turnNumber_turnId (n : ℤ) : turnNumber (turnId n) = n := by
  have hpiece : (turnId n).toList.rtakeWhile (· ≠ '_') = n.repr.toList := by
    unfold turnId
    rw [String.toList_append, List.rtakeWhile, List.reverse_append, List.takeWhile_append_of_pos]
    · simp
    · intro c hc
      have := (toList_repr_clean n (List.mem_reverse.mp hc)).1
      simpa using this
  rw [turnNumber, hpiece, intOfText_repr]
  rfl

/-! ### The recoverable turn -/

theorem mem_turnIds {events : List Event} {turn : String} :
    turn ∈ turnIds events ↔ ∃ e ∈ events, (e.get? "turn_id").isSome ∧ e.turn = turn := by
  simp [turnIds, and_assoc]

theorem turnIds_sorted (events : List Event) :
    (turnIds events).Pairwise (fun a b => turnNumber b ≤ turnNumber a) :=
  List.pairwise_insertionSort _ _

/-- The recoverable turn with the greatest number is resumed. -/
theorem recoverableTurn_eq {events : List Event} {turn : String} (hmem : turn ∈ turnIds events)
    (hrec : recoverable events turn = true)
    (hothers : ∀ turn', recoverable events turn' = true → turn' ≠ turn →
      turnNumber turn' < turnNumber turn) :
    recoverableTurn events = (turn, turnEvents events turn) := by
  have hfind : (turnIds events).find? (fun turn => recoverable events turn) = some turn := by
    cases hf : (turnIds events).find? (fun turn => recoverable events turn) with
    | none => exact absurd hrec (by simpa using List.find?_eq_none.mp hf turn hmem)
    | some found =>
        obtain ⟨hfound, before, after, hsplit, hbefore⟩ := List.find?_eq_some_iff_append.mp hf
        by_contra hne
        have hne : found ≠ turn := fun h => hne (congrArg some h)
        have hlt := hothers found hfound hne
        rw [hsplit] at hmem
        have hsorted := turnIds_sorted events
        rw [hsplit, List.pairwise_append] at hsorted
        rcases List.mem_append.mp hmem with hin | hin
        · have := hbefore turn hin
          simp [hrec] at this
        · rcases List.mem_cons.mp hin with heq | hin
          · exact hne heq.symm
          · have := (List.pairwise_cons.mp hsorted.2.1).1 turn hin
            omega
  rw [recoverableTurn, hfind]

/-- The turn found is recoverable, or nothing is. -/
theorem recoverableTurn_cases (events : List Event) :
    (∃ turn, recoverable events turn = true ∧
      recoverableTurn events = (turn, turnEvents events turn)) ∨
      recoverableTurn events = ("", []) := by
  unfold recoverableTurn
  cases hf : (turnIds events).find? (fun turn => recoverable events turn) with
  | none => exact .inr rfl
  | some turn => exact .inl ⟨turn, by simpa using List.find?_some hf, rfl⟩

/-- A new turn has a greater number than all turns of the log. -/
theorem lt_nextTurnId {events : List Event} {e : Event} (he : e ∈ events)
    (hturn : (e.get? "turn_id").isSome) : turnNumber e.turn < turnNumber (nextTurnId events) := by
  have hmem : turnNumber e.turn ∈ (turnIds events).map turnNumber :=
    List.mem_map_of_mem (mem_turnIds.mpr ⟨e, he, hturn, rfl⟩)
  rw [nextTurnId, turnNumber_turnId]
  cases hmax : ((turnIds events).map turnNumber).max? with
  | none =>
      rw [List.max?_eq_none_iff] at hmax
      rw [hmax] at hmem
      cases hmem
  | some m =>
      have := (List.max?_eq_some_iff.mp hmax).2 _ hmem
      rw [Option.getD_some]
      omega

/-! ### One more event -/

section append

variable (events : List Event) (e : Event)

theorem lastOfType_append (type : String) :
    lastOfType (events ++ [e]) type = if e.type = type then some e else lastOfType events type := by
  unfold lastOfType
  rw [List.reverse_append, List.reverse_singleton, List.singleton_append, List.find?_cons]
  by_cases h : e.type = type <;> simp [h]

theorem turnEvents_append (turn : String) :
    turnEvents (events ++ [e]) turn =
      if e.turn = turn then turnEvents events turn ++ [e] else turnEvents events turn := by
  unfold turnEvents
  rw [List.filter_append]
  by_cases h : e.turn = turn <;> simp [h]

theorem lastPhaseEvent_append (turn : String) :
    lastPhaseEvent (events ++ [e]) turn =
      if e.type = "loop.phase.changed" ∧ e.turn = turn then some e
      else lastPhaseEvent events turn := by
  unfold lastPhaseEvent
  rw [List.reverse_append, List.reverse_singleton, List.singleton_append, List.find?_cons]
  by_cases h : e.type = "loop.phase.changed" ∧ e.turn = turn <;> simp [h]

theorem turnClosed_append (turn : String) :
    turnClosed (events ++ [e]) turn =
      (turnClosed events turn || decide (e.turn = turn ∧ e.type ∈ turnCompletedEvents)) := by
  unfold turnClosed
  rw [turnEvents_append]
  by_cases h : e.turn = turn <;> simp [h]

theorem operationsOf_append (type : String) :
    operationsOf (events ++ [e]) type =
      operationsOf events type ++ if e.type = type then [e.operation] else [] := by
  unfold operationsOf
  rw [List.filter_append, List.map_append]
  by_cases h : e.type = type <;> simp [h]

theorem endedOperations_append :
    endedOperations (events ++ [e]) =
      endedOperations events ++ if e.type ∈ operationEnds then [e.operation] else [] := by
  unfold endedOperations
  rw [List.filter_append, List.map_append]
  by_cases h : e.type ∈ operationEnds <;> simp [h]

theorem lastWait_append :
    lastWait (events ++ [e]) =
      if e.type = "agent.waiting" then some (e, [])
      else (lastWait events).map (fun w => (w.1, w.2 ++ [e])) := by
  induction events with
  | nil =>
      by_cases h : e.type = "agent.waiting" <;> simp [lastWait, h]
  | cons a es ih =>
      rw [List.cons_append, lastWait, ih]
      by_cases h : e.type = "agent.waiting"
      · simp [h]
      · simp only [if_neg h, lastWait]
        cases lastWait es with
        | some w => rfl
        | none => by_cases ha : a.type = "agent.waiting" <;> simp [ha]

/-- Only a wait, an unknown outcome or an end of the run puts a run to rest. -/
theorem AtRest.of_append {events : List Event} {e : Event} (h : AtRest (events ++ [e]))
    (hend : e.type ∉ ["agent.stopped", "agent.submitted", "agent.failed"])
    (hunknown : e.type ≠ "operation.unknown") (hwait : e.type ≠ "agent.waiting") :
    AtRest events := by
  rcases h with ⟨a, ha, htype⟩ | ⟨o, ho, hno⟩ | h
  · rcases List.mem_append.mp ha with ha | ha
    · exact .inl ⟨a, ha, htype⟩
    · rw [List.mem_singleton.mp ha] at htype
      exact absurd htype hend
  · rw [operationsOf_append, if_neg hunknown, List.append_nil] at ho
    rw [operationsOf_append, List.mem_append, not_or] at hno
    exact .inr (.inl ⟨o, ho, hno.1⟩)
  · refine .inr (.inr ?_)
    unfold HasActiveWait at h ⊢
    rw [lastWait_append, if_neg hwait] at h
    cases hw : lastWait events with
    | none =>
        rw [hw] at h
        exact h
    | some w =>
        rw [hw] at h
        simp only [Option.map_some] at h
        dsimp only
        cases hc : w.1.correlation with
        | none => simp [hc] at h
        | some c =>
            simp only [hc] at h ⊢
            intro a ha
            exact h a (List.mem_append_left _ ha)

end append

/-! ### Unresolved operations -/

/-- An operation has started and not ended. -/
def Unresolved (events : List Event) (u : Event) : Prop :=
  u ∈ events ∧ u.type = "operation.started" ∧ u.operation ∉ endedOperations events

theorem unresolved_of_unresolvedOperation {events : List Event} {u : Event}
    (h : unresolvedOperation events = some u) : Unresolved events u := by
  have hmem := List.mem_of_find?_eq_some h
  have hp := List.find?_some h
  simp only [decide_eq_true_eq] at hp
  exact ⟨List.mem_reverse.mp hmem, hp.1, hp.2⟩

theorem unresolvedOperation_eq_none_iff {events : List Event} :
    unresolvedOperation events = none ↔ ∀ u, ¬ Unresolved events u := by
  unfold unresolvedOperation Unresolved
  rw [List.find?_eq_none]
  constructor
  · intro h u hu
    exact h u (List.mem_reverse.mpr hu.1) (by simpa using hu.2)
  · intro h u hu hp
    exact h u ⟨List.mem_reverse.mp hu, by simpa using hp⟩

/-- An event that neither starts nor ends an operation changes nothing. -/
theorem unresolvedOperation_append_other {events : List Event} {e : Event}
    (hstart : e.type ≠ "operation.started")
    (hend : e.type ∈ operationEnds → e.operation ∈ endedOperations events) :
    unresolvedOperation (events ++ [e]) = unresolvedOperation events := by
  have hended : ∀ o, o ∈ endedOperations (events ++ [e]) ↔ o ∈ endedOperations events := by
    intro o
    rw [endedOperations_append, List.mem_append]
    by_cases h : e.type ∈ operationEnds
    · rw [if_pos h, List.mem_singleton]
      exact ⟨fun ho => ho.elim id (fun ho => ho ▸ hend h), .inl⟩
    · rw [if_neg h]
      simp
  unfold unresolvedOperation
  rw [List.reverse_append, List.reverse_singleton, List.singleton_append, List.find?_cons]
  simp only [hstart, false_and, decide_false, hended]

end CrazyHarness
