import CrazyHarness.Store.Transactions

/-! # The row of an agent

`agent.registered`, the events of the runtime about an agent and the facts of its mailbox move the
row of an agent.  Only the latter move its counter `mailbox_pending` (`NewEvent.counter_kept`,
`NewEvent.counter_moved`); the counter starts at zero (`NewEvent.counter_registered`). -/

namespace CrazyHarness

open Lib

namespace Event

/-- The agent an `agent.registered` registers. -/
def registers (e : Event) : Option String :=
  if e.type = "agent.registered" then (e.get? "agent_id").map Json.pyStr else none

/-- The agent whose counter a fact of a mailbox moves. -/
def inboxOf (e : Event) : Option String :=
  if e.type = "mailbox.delivery.sent" ∨ e.type = "mailbox.delivery.acked" then
    truthyText (e.get? "mailbox_id")
  else none

/-- What a fact of a mailbox adds to the counter. -/
def inboxDelta (e : Event) : ℤ := if e.type = "mailbox.delivery.sent" then 1 else -1

end Event

namespace Database

variable {db db' : Database} {e : Event} {seq : ℕ} {agentId : String} {state : Dict}

/-- `mailbox_pending` of the row of an agent. -/
def mailboxPending (db : Database) (agentId : String) : Option Json :=
  (db.loadProjection "agent" agentId).bind (Dict.get? · "mailbox_pending")

/-! ### Next rows -/

theorem registeredAgent_some {old new : Option Dict} (h : nextRegisteredAgent e agentId old = .ok new) :
    ∃ row, new = some row := by
  unfold nextRegisteredAgent at h
  obtain ⟨n, _, h⟩ := bind_ok_iff.mp h
  exact ⟨_, (Except.ok.inj h).symm⟩

theorem registeredAgent_counter {new : Dict}
    (h : nextRegisteredAgent e agentId (some state) = .ok (some new)) :
    new.get? "mailbox_pending" = state.get? "mailbox_pending" := by
  unfold nextRegisteredAgent at h
  obtain ⟨n, _, h⟩ := bind_ok_iff.mp h
  obtain rfl := Option.some.inj (Except.ok.inj h)
  simp [Dict.get?_cons]

theorem registeredAgent_new {new : Dict} (h : nextRegisteredAgent e agentId none = .ok (some new)) :
    new.get? "mailbox_pending" = some (.int 0) := by
  unfold nextRegisteredAgent at h
  obtain ⟨n, _, h⟩ := bind_ok_iff.mp h
  obtain rfl := Option.some.inj (Except.ok.inj h)
  simp [Dict.get?_cons]

theorem get?_ite_set {c : Prop} [Decidable c] {key l : String} {v : Json} (h : l ≠ key) :
    (if c then state.set key v else state).get? l = state.get? l := by
  split
  · rw [Dict.get?_set_ne _ _ h]
  · rfl

theorem get?_ite_update {c : Prop} [Decidable c] {fields : Dict} {l : String}
    (h : fields.get? l = none) : (if c then state.update fields else state).get? l = state.get? l := by
  split
  · rw [Dict.get?_update, h, Option.none_or]
  · rfl

/-- The branches before `in_flight` set other fields. -/
theorem agentStatus_counter (e : Event) (state : Dict) :
    (match agentStatusByType.lookup e.type with
    | some status =>
        if state.get? "status" ∈ [some (Json.str "degraded"), some (Json.str "offline")] ∧
            e.type ∈ ["runtime.agent.busy", "runtime.agent.idle", "runtime.agent.waiting"] then state
        else if status ∈ ["idle", "offline"] then
          (state.update [("status", Json.str status), ("active_run_id",
            if status ∈ ["busy", "waiting", "degraded"] then Json.str e.runId else Json.null)]).set
              "active_assignment_id" Json.null
        else state.update [("status", Json.str status), ("active_run_id",
            if status ∈ ["busy", "waiting", "degraded"] then Json.str e.runId else Json.null)]
    | none => state).get? "mailbox_pending" = state.get? "mailbox_pending" := by
  split
  · split
    · rfl
    · split <;> simp [Dict.get?_cons, Dict.get?_set]
  · rfl

theorem agentRuntime_counter {r : Option Dict} (h : nextAgentRuntime e (some state) = .ok r) :
    ∃ new, r = some new ∧ new.get? "mailbox_pending" = state.get? "mailbox_pending" := by
  unfold nextAgentRuntime at h
  dsimp only at h
  have hstatus := agentStatus_counter e state
  split at h
  · obtain ⟨n, _, h⟩ := bind_ok_iff.mp h
    obtain rfl := Except.ok.inj h
    refine ⟨_, rfl, ?_⟩
    rw [Dict.get?_set_ne _ _ (by decide), Dict.get?_set_ne _ _ (by decide),
      get?_ite_update (by simp [Dict.get?_cons]), get?_ite_set (by decide)]
    exact hstatus
  · obtain rfl := Except.ok.inj h
    refine ⟨_, rfl, ?_⟩
    rw [Dict.get?_set_ne _ _ (by decide), get?_ite_update (by simp [Dict.get?_cons]),
      get?_ite_set (by decide)]
    exact hstatus

theorem mailbox_counter {r : Option Dict} (h : nextMailbox e (some state) = .ok r) {n : ℤ}
    (hn : state.get? "mailbox_pending" = some (.int n)) :
    ∃ new, r = some new ∧ new.get? "mailbox_pending" = some (.int (max 0 (n + e.inboxDelta))) := by
  unfold nextMailbox at h
  obtain ⟨m, hm, h⟩ := bind_ok_iff.mp h
  obtain rfl := Except.ok.inj h
  rw [Dict.getD, hn, Option.getD_some] at hm
  obtain rfl : n = m := Except.ok.inj hm
  refine ⟨_, rfl, ?_⟩
  simp [Event.inboxDelta]

/-! ### One event -/

/-- What an event does to the row of an agent. -/
inductive AgentMoved (e : Event) (agentId : String) (old : Option Dict) : Option Dict → Prop
  | registered {new : Option Dict} (h : e.registers = some agentId)
      (hnew : nextRegisteredAgent e agentId old = .ok new) : AgentMoved e agentId old new
  | runtime {r : Option Dict} (hother : e.registers = none) (hinbox : e.inboxOf = none)
      (hr : nextAgentRuntime e old = .ok r) : AgentMoved e agentId old (r.or old)
  | mailbox {r : Option Dict} (hother : e.registers = none) (h : e.inboxOf = some agentId)
      (hr : nextMailbox e old = .ok r) : AgentMoved e agentId old (r.or old)
  | other (hother : e.registers ≠ some agentId) (hinbox : e.inboxOf ≠ some agentId) :
      AgentMoved e agentId old old

theorem projectAgent_moved (h : db.projectAgent e seq = .ok db') (agentId : String) :
    AgentMoved e agentId (db.loadProjection "agent" agentId) (db'.loadProjection "agent" agentId) := by
  unfold projectAgent at h
  split at h
  · rename_i hregistered
    have hinbox : e.inboxOf = none := by simp [Event.inboxOf, hregistered]
    obtain ⟨v, hv, h⟩ := bind_ok_iff.mp h
    obtain ⟨r, hr, _, hload⟩ := rewriteProjection_ok h
    have hid : e.registers = some v.pyStr := by
      rw [Event.registers, if_pos hregistered]
      unfold item at hv
      split at hv
      · rename_i w hw
        obtain rfl := Except.ok.inj hv
        rw [Event.get?, hw, Option.map_some]
      · cases hv
    rw [hload]
    split
    · rename_i heq
      subst heq
      unfold nextRegisteredAgent at hr
      obtain ⟨n, hn, hr⟩ := bind_ok_iff.mp hr
      obtain rfl := Except.ok.inj hr
      refine .registered hid ?_
      unfold nextRegisteredAgent
      rw [hn, ok_bind]
      rfl
    · rename_i hne
      refine .other (fun h => hne ?_) (by rw [hinbox]; simp)
      exact (Option.some.inj (hid.symm.trans h)).symm
  rename_i hregistered
  have hother : e.registers = none := if_neg hregistered
  split at h
  · rename_i hruntime
    have hinbox : e.inboxOf = none := by
      refine if_neg ?_
      rintro (htype | htype) <;>
        · rw [htype] at hruntime
          exact absurd hruntime (by decide)
    split at h
    · obtain rfl := Except.ok.inj h
      exact .other (by rw [hother]; simp) (by rw [hinbox]; simp)
    · rename_i entity _
      obtain ⟨r, hr, _, hload⟩ := rewriteProjection_ok h
      rw [hload]
      split
      · rename_i heq
        subst heq
        exact .runtime hother hinbox hr
      · exact .other (by rw [hother]; simp) (by rw [hinbox]; simp)
  split at h
  · rename_i hfact
    have hinbox : e.inboxOf = truthyText (e.get? "mailbox_id") := if_pos hfact
    split at h
    · rename_i hnone
      obtain rfl := Except.ok.inj h
      exact .other (by rw [hother]; simp) (by rw [hinbox, hnone]; simp)
    · rename_i entity hentity
      obtain ⟨r, hr, _, hload⟩ := rewriteProjection_ok h
      rw [hload]
      split
      · rename_i heq
        subst heq
        exact .mailbox hother (hinbox.trans hentity) hr
      · rename_i hne
        refine .other (by rw [hother]; simp) (fun h => hne ?_)
        rw [hinbox, hentity] at h
        exact (Option.some.inj h).symm
  · rename_i hfact
    obtain rfl := Except.ok.inj h
    exact .other (by rw [hother]; simp) (by rw [Event.inboxOf, if_neg hfact]; simp)

theorem NewEvent.agent (h : NewEvent db e db') (agentId : String) :
    AgentMoved e agentId (db.loadProjection "agent" agentId) (db'.loadProjection "agent" agentId) := by
  obtain ⟨hnew, hproject⟩ := h
  obtain ⟨run, agent, assignment, lease, context, manifest, memory, evolution, h1, h2, h3, h4, h5,
    h6, h7, h8, h9⟩ := projectEvent_stages hproject
  rw [h9.others _ _ (by decide), h8.others _ _ (by decide), h7.others _ _ (by decide),
    h6.others _ _ (by decide), h5.others _ _ (by decide),
    (onlyKind_projectLease h4).others _ _ (by decide),
    (onlyKind_projectAssignment h3).others _ _ (by decide)]
  have hmoved := projectAgent_moved h2 agentId
  rwa [(onlyKind_rewrite h1).others "agent" agentId (by decide)] at hmoved

/-! ### The counter -/

/-- An event that is no fact of the mailbox of a registered agent leaves its counter alone. -/
theorem NewEvent.counter_kept (h : NewEvent db e db') (hinbox : e.inboxOf ≠ some agentId)
    (hrow : (db.loadProjection "agent" agentId).isSome) :
    db'.mailboxPending agentId = db.mailboxPending agentId ∧
      (db'.loadProjection "agent" agentId).isSome := by
  obtain ⟨state, hstate⟩ := Option.isSome_iff_exists.mp hrow
  have hmoved := h.agent agentId
  unfold mailboxPending
  rw [hstate] at hmoved ⊢
  generalize db'.loadProjection "agent" agentId = row at hmoved ⊢
  cases hmoved with
  | registered _ hnew =>
      obtain ⟨row, rfl⟩ := registeredAgent_some hnew
      exact ⟨registeredAgent_counter hnew, rfl⟩
  | runtime _ _ hr =>
      obtain ⟨new, rfl, hcounter⟩ := agentRuntime_counter hr
      exact ⟨hcounter, rfl⟩
  | mailbox _ hin _ => exact absurd hin hinbox
  | other => exact ⟨rfl, rfl⟩

/-- A fact of the mailbox moves the counter by one, and never below zero. -/
theorem NewEvent.counter_moved (h : NewEvent db e db') (hinbox : e.inboxOf = some agentId) {n : ℤ}
    (hn : db.mailboxPending agentId = some (.int n)) :
    db'.mailboxPending agentId = some (.int (max 0 (n + e.inboxDelta))) := by
  obtain ⟨state, hstate, hcounter⟩ := Option.bind_eq_some_iff.mp hn
  have hmoved := h.agent agentId
  have hfact : e.type = "mailbox.delivery.sent" ∨ e.type = "mailbox.delivery.acked" := by
    by_contra hnot
    rw [Event.inboxOf, if_neg hnot] at hinbox
    cases hinbox
  unfold mailboxPending
  rw [hstate] at hmoved
  generalize db'.loadProjection "agent" agentId = row at hmoved ⊢
  cases hmoved with
  | registered hreg _ =>
      rw [Event.registers, if_neg] at hreg
      · cases hreg
      · rcases hfact with htype | htype <;> simp [htype]
  | runtime _ hnone _ =>
      rw [hinbox] at hnone
      cases hnone
  | mailbox _ _ hr =>
      obtain ⟨new, rfl, hnew⟩ := mailbox_counter hr hcounter
      exact hnew
  | other _ hnot => exact absurd hinbox hnot

/-- An agent that is registered for the first time has nothing in its mailbox. -/
theorem NewEvent.counter_registered (h : NewEvent db e db') (hreg : e.registers = some agentId)
    (hrow : db.loadProjection "agent" agentId = none) :
    db'.mailboxPending agentId = some (.int 0) := by
  have hmoved := h.agent agentId
  unfold mailboxPending
  rw [hrow] at hmoved
  generalize db'.loadProjection "agent" agentId = row at hmoved ⊢
  cases hmoved with
  | registered _ hnew =>
      obtain ⟨row, rfl⟩ := registeredAgent_some hnew
      exact registeredAgent_new hnew
  | runtime hother _ _ =>
      rw [hreg] at hother
      cases hother
  | mailbox hother _ _ =>
      rw [hreg] at hother
      cases hother
  | other hother _ => exact absurd hreg hother

/-- Only its registration makes a row of an agent. -/
theorem NewEvent.unregistered (h : NewEvent db e db') (hreg : e.registers ≠ some agentId)
    (hrow : db.loadProjection "agent" agentId = none) : db'.loadProjection "agent" agentId = none := by
  have hmoved := h.agent agentId
  rw [hrow] at hmoved
  generalize db'.loadProjection "agent" agentId = row at hmoved ⊢
  cases hmoved with
  | registered hreg' _ => exact absurd hreg' hreg
  | runtime _ _ hr =>
      obtain rfl := Except.ok.inj hr
      rfl
  | mailbox _ _ hr =>
      obtain rfl := Except.ok.inj hr
      rfl
  | other => rfl

end Database

end CrazyHarness
