import CrazyHarness.Kernel.Provenance
import CrazyHarness.Lib.Follow

/-! # Causal chains

`_causal_chain_reaches_seed` over any store and any map of positions.  Nothing is assumed of what causes what:
causes may be missing, lead in circles or into other runs.  Every step of the loop goes to a lower position,
and there are finitely many, so the loop ends; `causalChain_decides` says what it returns.

`causalChainReachesSeed_within` is the same for the loop as the kernel runs it, over the log of a child run. -/

namespace CrazyHarness

open Lib Check

/-! ### The loop -/

/-- Both events have a position, that of `a` lower than that of `b`. -/
def earlier (positions : List (String × ℤ)) (a b : Event) : Bool :=
  match positions.lookup a.id, positions.lookup b.id with
  | some i, some j => decide (i < j)
  | _, _ => false

/-- The loop of `_causal_chain_reaches_seed`, for so many rounds; `none`: it has not ended. -/
def causalChain (positions : List (String × ℤ)) (seed : Event) :
    ℕ → List String → Event → Check (Option Bool)
  | 0, _, _ => pure none
  | rounds + 1, visited, current =>
      if current.id = seed.id then pure (some true)
      else do
        let trusted ← isTrustedAgentRunObservation seed current
        if trusted then return some true
        else if current.id ∈ visited then return some false
        else
          match current.causationId with
          | none => return some false
          | some cause =>
              match ← getEvent cause with
              | none => return some false
              | some parent =>
                  if parent.runId = seed.runId ∧ parent.taskId = seed.taskId ∧
                      earlier positions parent current then
                    causalChain positions seed rounds (current.id :: visited) parent
                  else return some false

/-! ### What it is for -/

/-- The event that a bridged response was made from: the one that it names and that caused it. -/
def RootOf (db : Database) (event root : Event) : Prop :=
  ∃ rootEventId, event.text "root_event_id" = some rootEventId ∧
    event.causationId = some rootEventId ∧ db.getEvent rootEventId = some root

/-- A response of the run and the root task of the seed, to the agent of the seed. -/
structure AnswersAgent (seed root : Event) : Prop where
  run : root.runId = seed.runId
  task : seed.text "root_task_id" = some root.taskId
  type : root.type = "a2a.peer.responded"
  receiver : (root.value "receiver").pyEq (seed.value "agent_id")

/-- The bridge has brought a response of the root task into the run of the seed, as it is. -/
structure BridgedResponse (db : Database) (seed event : Event) : Prop where
  type : event.type = "a2a.peer.responded"
  source : event.source = "runtime.a2a.bridge"
  root : ∃ root, RootOf db event root ∧ AnswersAgent seed root ∧
    ∀ field ∈ ["assignment_id", "correlation_id", "sender", "brief", "evidence_refs"],
      (event.value field).pyEq (root.value field)

/-- `parent` caused `event`, in the run and the task of the seed and at a lower position. -/
def CausedBy (db : Database) (positions : List (String × ℤ)) (seed event parent : Event) : Prop :=
  ∃ cause, event.causationId = some cause ∧ db.getEvent cause = some parent ∧
    parent.runId = seed.runId ∧ parent.taskId = seed.taskId ∧
      ∃ i j, positions.lookup parent.id = some i ∧ positions.lookup event.id = some j ∧ i < j

/-- What the loop looks for. -/
def Grounded (db : Database) (seed event : Event) : Prop :=
  event.id = seed.id ∨ BridgedResponse db seed event

theorem earlier_iff {positions : List (String × ℤ)} {a b : Event} : earlier positions a b = true ↔
    ∃ i j, positions.lookup a.id = some i ∧ positions.lookup b.id = some j ∧ i < j := by
  unfold earlier
  cases positions.lookup a.id <;> cases positions.lookup b.id <;> simp

section loop

variable {db : Database} {clock : DateTime} {positions : List (String × ℤ)} {seed event : Event}

/-- Reading one event. -/
theorem getEvent_bind {β : Type} (id : String) (f : Option Event → Check β) :
    (getEvent id >>= f).within db clock = (f (db.getEvent id)).within db clock := by
  rw [within_bind]
  rfl

/-- `_is_trusted_agent_run_observation` recognizes the responses of the bridge. -/
theorem isTrusted_within : ∃ trusted,
    (isTrustedAgentRunObservation seed event).within db clock = .ok trusted ∧
      (trusted = true ↔ BridgedResponse db seed event) := by
  unfold isTrustedAgentRunObservation
  split
  next hkind =>
    refine ⟨false, rfl, iff_of_false Bool.false_ne_true ?_⟩
    rintro ⟨htype, hsource, -⟩
    exact hkind.elim (absurd htype) (absurd hsource)
  next hkind =>
    rw [not_or, not_not, not_not] at hkind
    cases htext : event.text "root_event_id" with
    | none =>
        refine ⟨false, rfl, iff_of_false Bool.false_ne_true ?_⟩
        rintro ⟨-, -, root, ⟨rootEventId, hroot, -⟩, -⟩
        rw [htext] at hroot
        cases hroot
    | some rootEventId =>
        dsimp only
        split
        next hcause =>
          refine ⟨false, rfl, iff_of_false Bool.false_ne_true ?_⟩
          rintro ⟨-, -, root, ⟨rootEventId', hroot, hcause', -⟩, -⟩
          rw [htext] at hroot
          obtain rfl := Option.some.inj hroot
          exact hcause hcause'
        next hcause =>
          rw [not_not] at hcause
          rw [getEvent_bind]
          cases hget : db.getEvent rootEventId with
          | none =>
              refine ⟨false, rfl, iff_of_false Bool.false_ne_true ?_⟩
              rintro ⟨-, -, root, ⟨rootEventId', hroot, -, hget'⟩, -⟩
              rw [htext] at hroot
              obtain rfl := Option.some.inj hroot
              rw [hget] at hget'
              cases hget'
          | some root =>
              refine ⟨_, rfl, ?_⟩
              rw [decide_eq_true_iff]
              constructor
              · rintro ⟨hrun, htask, htype, hreceiver, hfields⟩
                exact ⟨hkind.1, hkind.2, root, ⟨rootEventId, htext, hcause, hget⟩,
                  ⟨hrun, htask, htype, hreceiver⟩, hfields⟩
              · rintro ⟨-, -, root', ⟨rootEventId', hroot, -, hget'⟩, hanswers, hfields⟩
                rw [htext] at hroot
                obtain rfl := Option.some.inj hroot
                rw [hget] at hget'
                obtain rfl := Option.some.inj hget'
                exact ⟨hanswers.run, hanswers.task, hanswers.type, hanswers.receiver, hfields⟩

open Classical in
/-- Whether an event is what the loop looks for. -/
noncomputable def accepts (db : Database) (seed event : Event) : Bool := decide (Grounded db seed event)

theorem accepts_iff : accepts db seed event = true ↔ Grounded db seed event := by
  classical
  exact decide_eq_true_iff

/-- The event that caused this one, if the loop goes to it. -/
def causeOf (db : Database) (positions : List (String × ℤ)) (seed event : Event) : Option Event :=
  match event.causationId with
  | none => none
  | some cause =>
      match db.getEvent cause with
      | none => none
      | some parent =>
          if parent.runId = seed.runId ∧ parent.taskId = seed.taskId ∧ earlier positions parent event then
            some parent
          else none

theorem causeOf_iff {parent : Event} :
    causeOf db positions seed event = some parent ↔ CausedBy db positions seed event parent := by
  unfold causeOf CausedBy
  simp only [← earlier_iff]
  cases event.causationId with
  | none => simp
  | some cause =>
      dsimp only
      cases hget : db.getEvent cause with
      | none => simp [hget]
      | some found =>
          dsimp only
          constructor
          · intro h
            split at h
            next hgo =>
              obtain rfl := Option.some.inj h
              exact ⟨cause, rfl, hget, hgo⟩
            next => cases h
          · rintro ⟨cause', hcause, hget', hgo⟩
            obtain rfl := Option.some.inj hcause
            rw [hget] at hget'
            obtain rfl := Option.some.inj hget'
            exact if_pos hgo

/-- How many entries have a position below that of the event. -/
def depth (positions : List (String × ℤ)) (event : Event) : ℕ :=
  match positions.lookup event.id with
  | some j => positions.countP (fun entry => entry.2 < j)
  | none => 0

theorem depth_le : depth positions event ≤ positions.length := by
  unfold depth
  split
  · exact List.countP_le_length
  · exact Nat.zero_le _

/-- Going to a cause leaves one entry less. -/
theorem depth_lt {parent : Event} (h : CausedBy db positions seed event parent) :
    depth positions parent < depth positions event := by
  obtain ⟨cause, -, -, -, -, i, j, hi, hj, hlt⟩ := h
  unfold depth
  rw [hi, hj]
  obtain ⟨before, after, hpositions, -⟩ := List.lookup_eq_some_iff.mp hi
  have hmem : (parent.id, i) ∈ positions.filter (fun entry => entry.2 < j) := by
    rw [List.mem_filter, hpositions]
    exact ⟨by simp, by simpa using hlt⟩
  have hless : (positions.filter (fun entry => entry.2 < j)).countP (fun entry => entry.2 < i) <
      (positions.filter (fun entry => entry.2 < j)).length :=
    List.countP_lt_length_iff.mpr ⟨_, hmem, by simp⟩
  rw [List.countP_filter, ← List.countP_eq_length_filter] at hless
  have hsame : positions.countP (fun entry => decide (entry.2 < i) && decide (entry.2 < j)) =
      positions.countP (fun entry => entry.2 < i) := by
    refine List.countP_congr ?_
    intro entry _
    simp only [Bool.and_eq_true, decide_eq_true_iff]
    omega
  rwa [hsame] at hless

/-- The rounds of the loop follow the causes; what has been visited has a higher position, so nothing is
visited twice. -/
theorem causalChain_within {rounds : ℕ} {visited : List String}
    (hvisited : ∀ id ∈ visited, ∃ i, positions.lookup id = some i ∧
      ∀ j, positions.lookup event.id = some j → j < i) :
    (causalChain positions seed rounds visited event).within db clock =
      .ok (follow (accepts db seed) (causeOf db positions seed) rounds event) := by
  induction rounds generalizing visited event with
  | zero => rfl
  | succ rounds ih =>
      unfold causalChain follow
      split
      next hseed =>
        rw [if_pos (accepts_iff.mpr (.inl hseed))]
        rfl
      next hseed =>
        obtain ⟨trusted, hwithin, htrusted⟩ := @isTrusted_within db clock seed event
        rw [within_bind, hwithin, ok_bind]
        cases trusted with
        | true =>
            rw [if_pos rfl, if_pos (accepts_iff.mpr (.inr (htrusted.mp rfl)))]
            rfl
        | false =>
            have hnot : ¬ accepts db seed event = true := by
              rw [accepts_iff]
              exact fun h => h.elim hseed (fun h => Bool.false_ne_true (htrusted.mpr h))
            have hnew : event.id ∉ visited := by
              intro hmem
              obtain ⟨i, hi, hlt⟩ := hvisited event.id hmem
              exact lt_irrefl i (hlt i hi)
            rw [if_neg Bool.false_ne_true, if_neg hnot, if_neg hnew]
            unfold causeOf
            cases hcause : event.causationId with
            | none => rfl
            | some cause =>
                dsimp only
                rw [getEvent_bind]
                cases hget : db.getEvent cause with
                | none => rfl
                | some parent =>
                    dsimp only
                    split
                    next hgo =>
                      refine ih ?_
                      obtain ⟨i, j, hi, hj, hij⟩ := earlier_iff.mp hgo.2.2
                      intro id hid
                      rcases List.mem_cons.mp hid with rfl | hid
                      · refine ⟨j, hj, ?_⟩
                        intro i' hi'
                        rw [hi] at hi'
                        obtain rfl := Option.some.inj hi'
                        exact hij
                      · obtain ⟨k, hk, hlt⟩ := hvisited id hid
                        refine ⟨k, hk, ?_⟩
                        intro i' hi'
                        rw [hi] at hi'
                        obtain rfl := Option.some.inj hi'
                        exact hij.trans (hlt j hj)
                    next => rfl

/-- **What the loop returns**, in any store, from any event and for any positions: it ends, and it returns
whether the causes of the event lead, at ever lower positions, to the seed or to a response that the bridge
has brought. -/
theorem causalChain_decides (db : Database) (clock : DateTime) (positions : List (String × ℤ))
    (seed event : Event) :
    ∃ found, (∀ rounds, positions.length < rounds →
        (causalChain positions seed rounds [] event).within db clock = .ok (some found)) ∧
      (found = true ↔ ∃ last,
        Relation.ReflTransGen (CausedBy db positions seed) event last ∧ Grounded db seed last) := by
  have hdecides : ∀ rounds, positions.length < rounds → ∃ found,
      follow (accepts db seed) (causeOf db positions seed) rounds event = some found ∧
        (found = true ↔ ∃ last, Relation.ReflTransGen (CausedBy db positions seed) event last ∧
          Grounded db seed last) := by
    intro rounds hrounds
    obtain ⟨found, hfollow, hfound⟩ := @follow_decides _ (accepts db seed) (causeOf db positions seed)
      (depth positions) (fun a b h => depth_lt (causeOf_iff.mp h)) rounds event
      (lt_of_le_of_lt depth_le hrounds)
    simp only [causeOf_iff, accepts_iff] at hfound
    exact ⟨found, hfollow, hfound⟩
  obtain ⟨found, -, hfound⟩ := hdecides (positions.length + 1) (Nat.lt_succ_self _)
  refine ⟨found, ?_, hfound⟩
  intro rounds hrounds
  obtain ⟨found', hfollow, hfound'⟩ := hdecides rounds hrounds
  rw [causalChain_within (List.forall_mem_nil _), hfollow, Bool.eq_iff_iff.mpr (hfound'.trans hfound.symm)]

end loop

/-! ### The loop of the kernel -/

section kernel

variable {db : Database} {clock : DateTime} {child : List Event} {seed event : Event}

/-- `{event.id: index for index, event in enumerate(child_events)}`. -/
def positionsOf (child : List Event) : List (String × ℤ) := child.zipIdx.map (fun e => (e.1.id, (e.2 : ℤ)))

theorem lookup_positions (id : String) (start : ℕ) :
    ((child.zipIdx start).map (fun e => (e.1.id, (e.2 : ℤ)))).lookup id =
      (position child id).map (fun i => ((start + i : ℕ) : ℤ)) := by
  induction child generalizing start with
  | nil => rfl
  | cons e child ih =>
      rw [List.zipIdx_cons, List.map_cons, List.lookup_cons, ih]
      unfold position
      rw [List.findIdx?_cons]
      by_cases hid : e.id = id
      · simp [hid]
      · have hid' : (id == e.id) = false := by simpa using fun h => hid h.symm
        rw [hid']
        simp [hid, Function.comp_def, Nat.add_comm, Nat.add_left_comm]

theorem earlier_positionsOf (a b : Event) : earlier (positionsOf child) a b = precedes child a b := by
  unfold earlier precedes positionsOf
  rw [lookup_positions, lookup_positions]
  cases position child a.id <;> cases position child b.id <;> simp

/-- The loop over the log of a child run is the loop over its positions. -/
theorem causalChainReachesSeed_within (rounds : ℕ) (visited : List String) :
    (causalChainReachesSeed child seed rounds visited event).within db clock =
      ((causalChain (positionsOf child) seed rounds visited event).within db clock).map
        (fun found => found.getD false) := by
  induction rounds generalizing visited event with
  | zero => rfl
  | succ rounds ih =>
      unfold causalChainReachesSeed causalChain
      split
      next => rfl
      next =>
        rw [within_bind, within_bind]
        cases (isTrustedAgentRunObservation seed event).within db clock with
        | error e => rfl
        | ok trusted =>
            rw [ok_bind, ok_bind]
            cases trusted with
            | true => rfl
            | false =>
                rw [if_neg Bool.false_ne_true]
                cases event.causationId with
                | none =>
                    dsimp only
                    split <;> rfl
                | some cause =>
                    dsimp only
                    split
                    next => rfl
                    next =>
                      rw [getEvent_bind, getEvent_bind]
                      cases db.getEvent cause with
                      | none => rfl
                      | some parent =>
                          dsimp only
                          rw [earlier_positionsOf]
                          split
                          next => exact ih _
                          next => rfl

/-- The kernel's own run of the loop is long enough. -/
theorem causalChainReachesSeed_decides : ∃ found,
    (causalChainReachesSeed child seed (child.length + 1) [] event).within db clock = .ok found ∧
      (found = true ↔ ∃ last,
        Relation.ReflTransGen (CausedBy db (positionsOf child) seed) event last ∧ Grounded db seed last) := by
  obtain ⟨found, hends, hfound⟩ := causalChain_decides db clock (positionsOf child) seed event
  refine ⟨found, ?_, hfound⟩
  have hlength : (positionsOf child).length < child.length + 1 := by
    simp [positionsOf]
  rw [causalChainReachesSeed_within, hends _ hlength]
  rfl

end kernel

end CrazyHarness
