import CrazyHarness.Lib.Decode
import CrazyHarness.Lib.Except
import CrazyHarness.Lib.Titles
import CrazyHarness.Store.Schema

/-! # Read projections

`_project_event` and its helpers: what one appended event does to the read projections.
Every branch has the same shape, so it is written as one: load the entity's projection,
compute its next state from the old one and the event, save it if there is one
(`rewriteProjection`).  The next state is a function of the old state and the event alone;
`projectEvent_lease` and its companions say that a projection of one kind is moved by the
function of that kind and by nothing else. -/

namespace CrazyHarness

open Lib

/-- `s.startswith(p)`. -/
def startsWith (p s : String) : Bool := p.toList.isPrefixOf s.toList

/-- `int(value)`, with its exceptions. -/
def intOf (v : Json) : Except StoreError ℤ :=
  match v.pyInt with
  | some n => .ok n
  | none => .error (.valueError "invalid literal for int()")

/-- `payload[key]`. -/
def item (d : Dict) (key : String) : Except StoreError Json :=
  match d.get? key with
  | some v => .ok v
  | none => .error (.keyError key)

/-- A value that is present and true in Python's sense, as text. -/
def truthyText (v : Option Json) : Option String :=
  match v with
  | some v => if v.truthy then some v.pyStr else none
  | none => none

/-! ### Next states -/

/-- The statuses a run does not leave. -/
def runTerminal (status : Option Json) : Bool :=
  status ∈ [some (.str "succeeded"), some (.str "failed"), some (.str "cancelled")]

/-- The projection a run starts with. -/
def initialRun (e : Event) : Dict :=
  [("run_id", .str e.runId), ("task_id", .str e.taskId),
   ("title", e.payload.getD "title" (.str "Untitled run")),
   ("brief", e.payload.getD "brief" (.str "")),
   ("status", .str "running"), ("phase", .str "intake"),
   ("model_mode", e.payload.getD "model_mode" (.str "scripted")),
   ("model_budget", e.payload.getD "model_budget" (.dict [])),
   ("behavior_version", e.payload.getD "behavior_version" (.str "v0.1.0")),
   ("started_at", .time e.createdAt), ("event_count", .int 0)]

/-- The status branches of a run's projection. -/
def runStep (e : Event) (run : Dict) : Dict :=
  let terminal := runTerminal (run.get? "status")
  let cancelling := run.get? "status" = some (.str "cancelling")
  let live := !terminal && !cancelling
  if e.type = "run.phase.changed" ∧ live then
    run.set "phase" ((e.get? "phase").getD (run.getD "phase" .null))
  else if e.type = "run.succeeded" ∧ live then
    run.update [("status", .str "succeeded"), ("phase", .str "complete"),
      ("completed_at", .time e.createdAt)]
  else if e.type = "run.failed" ∧ live then
    run.update [("status", .str "failed"), ("phase", .str "failed"),
      ("completed_at", .time e.createdAt)]
  else if e.type = "run.paused" ∧ live then
    run.set "status" (.str "paused")
  else if e.type = "checkpoint.barrier.acquired" then
    run.update [("checkpoint_barrier_id", (e.get? "barrier_id").getD .null),
      ("checkpoint_barrier_expires_at", (e.get? "expires_at").getD .null)]
  else if e.type = "checkpoint.barrier.released" ∧
      (run.getD "checkpoint_barrier_id" .null).pyEq ((e.get? "barrier_id").getD .null) then
    run.update [("checkpoint_barrier_id", .null), ("checkpoint_barrier_expires_at", .null)]
  else if e.type = "run.cancel.requested" ∧ !terminal then
    run.update [("status", .str "cancelling"), ("phase", .str "cancelling")]
  else if e.type = "run.cancelled" ∧ !terminal then
    run.update [("status", .str "cancelled"), ("phase", .str "cancelled"),
      ("completed_at", .time e.createdAt)]
  else if e.type = "completion.gate.passed" then
    run.set "completion_gate" (.str "passed")
  else if e.type = "completion.gate.failed" then
    run.set "completion_gate" (.str "failed")
  else run

/-- The run branch of `_project_event`. -/
def nextRun (e : Event) (seq : ℕ) (old : Option Dict) : Except StoreError (Option Dict) := do
  let run := if e.type = "run.created" then some (old.getD (initialRun e)) else old
  match run with
  | none => return none
  | some run =>
      let count ← intOf (run.getD "event_count" (.int 0))
      let run := run.update [("event_count", .int (count + 1)), ("last_event_type", .str e.type),
        ("last_cursor", .int seq), ("updated_at", .time e.createdAt)]
      return some (runStep e run)

/-- `agent.registered`. -/
def nextRegisteredAgent (e : Event) (agentId : String) (old : Option Dict) :
    Except StoreError (Option Dict) := do
  let state := old.getD
    [("agent_id", .str agentId), ("status", .str "idle"), ("mailbox_pending", .int 0)]
  let maxConcurrency ← intOf (e.payload.getD "max_concurrency" (.int 1))
  return some (state.update [("role", e.payload.getD "role" (.str (title agentId))),
    ("capabilities", e.payload.getD "capabilities" (.list [])),
    ("max_concurrency", .int maxConcurrency), ("updated_at", .time e.createdAt)])

/-- `status_by_type` of `_project_agent_runtime`. -/
def agentStatusByType : List (String × String) :=
  [("runtime.agent.busy", "busy"), ("runtime.agent.idle", "idle"),
   ("runtime.agent.waiting", "waiting"), ("runtime.agent.degraded", "degraded"),
   ("runtime.agent.offline", "offline"), ("runtime.agent.crashed", "degraded"),
   ("runtime.agent.recovered", "idle")]

/-- `_project_agent_runtime`. -/
def nextAgentRuntime (e : Event) (old : Option Dict) : Except StoreError (Option Dict) := do
  match old with
  | none => return none
  | some state =>
      let unavailable := state.get? "status" ∈ [some (.str "degraded"), some (.str "offline")]
      let implicitRecovery := unavailable ∧
        e.type ∈ ["runtime.agent.busy", "runtime.agent.idle", "runtime.agent.waiting"]
      let state :=
        match agentStatusByType.lookup e.type with
        | some status =>
            if implicitRecovery then state
            else
              let active := status ∈ ["busy", "waiting", "degraded"]
              let state := state.update [("status", .str status),
                ("active_run_id", if active then .str e.runId else .null)]
              if status ∈ ["idle", "offline"] then state.set "active_assignment_id" .null else state
        | none => state
      let state :=
        if e.type = "runtime.agent.crashed" then
          state.set "last_error" (e.payload.getD "reason" (.str "injected crash"))
        else state
      let state :=
        if e.type = "runtime.agent.heartbeat" then
          state.update [("last_heartbeat_at", .time e.createdAt),
            ("active_assignment_id", (e.get? "assignment_id").getD .null)]
        else state
      let state ←
        match e.get? "in_flight" with
        | some v => do
            let n ← intOf v
            pure (state.set "in_flight" (.int (max 0 n)))
        | none => pure state
      return some (state.set "updated_at" (.time e.createdAt))

/-- `_project_mailbox`. -/
def nextMailbox (e : Event) (old : Option Dict) : Except StoreError (Option Dict) := do
  match old with
  | none => return none
  | some state =>
      let delta : ℤ := if e.type = "mailbox.delivery.sent" then 1 else -1
      let pending ← intOf (state.getD "mailbox_pending" (.int 0))
      return some (state.update [("mailbox_pending", .int (max 0 (pending + delta))),
        ("updated_at", .time e.createdAt)])

/-- `assignment.created`. -/
def createdAssignment (e : Event) : Dict :=
  e.payload.update [("run_id", .str e.runId), ("task_id", .str e.taskId),
    ("status", .str "queued"), ("updated_at", .time e.createdAt)]

/-- `status_by_type` of the assignment branch. -/
def assignmentStatusByType : List (String × String) :=
  [("assignment.running", "running"), ("assignment.waiting", "waiting"),
   ("assignment.reviewing", "reviewing"), ("assignment.submitted", "submitted"),
   ("assignment.succeeded", "succeeded"), ("assignment.completed", "completed"),
   ("assignment.failed", "failed"), ("assignment.expired", "expired"),
   ("assignment.cancelled", "cancelled")]

/-- The statuses an assignment does not leave. -/
def assignmentTerminal (status : Option Json) : Bool :=
  status ∈ [some (.str "succeeded"), some (.str "completed"), some (.str "failed"),
    some (.str "expired"), some (.str "cancelled")]

/-- A later status of an assignment; a terminal one is kept. -/
def nextAssignment (e : Event) (status : String) (old : Option Dict) : Option Dict :=
  match old with
  | none => none
  | some state =>
      if assignmentTerminal (state.get? "status") then none
      else some (state.update [("status", .str status), ("updated_at", .time e.createdAt)])

/-- `status_by_type` of `_project_lease`. -/
def leaseStatusByType : List (String × String) :=
  [("assignment.lease.acquired", "active"), ("assignment.lease.renewed", "active"),
   ("assignment.lease.released", "released"), ("assignment.lease.expired", "expired")]

/-- The statuses a lease does not leave. -/
def leaseTerminal (status : Option Json) : Bool :=
  status ∈ [some (.str "released"), some (.str "expired")]

/-- The key under which a lease keeps the time of its last change. -/
def leaseStampByType : List (String × String) :=
  [("assignment.lease.acquired", "acquired_at"), ("assignment.lease.renewed", "renewed_at"),
   ("assignment.lease.released", "released_at"), ("assignment.lease.expired", "expired_at")]

/-- `_project_lease`; a released or expired lease is kept. -/
def nextLease (e : Event) (assignmentId : String) (old : Option Dict) : Option Dict :=
  let state := old.getD
    [("assignment_id", .str assignmentId), ("run_id", .str e.runId), ("task_id", .str e.taskId)]
  if leaseTerminal (state.get? "status") then none
  else
    let state := state.update e.payload
    let status := ((leaseStatusByType.lookup e.type).map Json.str).getD
      (state.getD "status" (.str "active"))
    let state := state.set "status" status
    let state :=
      match leaseStampByType.lookup e.type with
      | some stamp => state.setDefault stamp (.time e.createdAt)
      | none => state
    some (state.set "updated_at" (.time e.createdAt))

/-- The payload of an event with the run and task it belongs to, as three kinds store it. -/
def stampedPayload (e : Event) : Dict :=
  e.payload.update [("run_id", .str e.runId), ("task_id", .str e.taskId),
    ("updated_at", .time e.createdAt)]

/-- `_project_memory` and `_project_evolution`: the statuses differ, the rest is shared. -/
def nextGoverned (e : Event) (statuses : List (String × String)) (candidateId : Json)
    (old : Option Dict) : Dict :=
  let state := old.getD
    [("candidate_id", candidateId), ("run_id", .str e.runId), ("task_id", .str e.taskId)]
  let state := state.update (e.payload.filter (fun kv => kv.1 ≠ "candidate_id"))
  let status := ((statuses.lookup e.type).map Json.str).getD (state.getD "status" (.str "candidate"))
  state.update [("status", status), ("updated_at", .time e.createdAt)]

/-- `status_by_type` of `_project_memory`. -/
def memoryStatusByType : List (String × String) :=
  [("memory.candidate.proposed", "candidate"), ("memory.review.requested", "review"),
   ("memory.activated", "active"), ("memory.rejected", "rejected"), ("memory.expired", "expired")]

/-- `status_by_type` of `_project_evolution`. -/
def evolutionStatusByType : List (String × String) :=
  [("evolution.candidate.proposed", "candidate"), ("evolution.offline.passed", "offline_passed"),
   ("evolution.shadow.passed", "shadow_passed"), ("evolution.canary.passed", "canary_passed"),
   ("evolution.promoted", "promoted"), ("evolution.rejected", "rejected"),
   ("evolution.rolled_back", "rolled_back")]

/-- `event.type.rsplit(".", 1)[-1]`. -/
def lastSegment (type : String) : String :=
  String.ofList (type.toList.reverse.takeWhile (· ≠ '.')).reverse

/-- `_project_dream`. -/
def nextDream (e : Event) (jobId : Json) (old : Option Dict) : Dict :=
  let state := old.getD
    [("job_id", jobId), ("run_id", .str e.runId), ("task_id", .str e.taskId)]
  (state.update e.payload).update
    [("status", .str (lastSegment e.type)), ("updated_at", .time e.createdAt)]

/-! ### The projection of an event -/

namespace Database

/-- Load a projection, compute its next state and save that if there is one. -/
def rewriteProjection (db : Database) (kind entityId : String) (seq : ℕ)
    (next : Option Dict → Except StoreError (Option Dict)) : Except StoreError Database := do
  match ← next (db.loadProjection kind entityId) with
  | none => return db
  | some state => return db.saveProjection kind entityId state seq

/-- The agent branches of `_project_event`. -/
def projectAgent (db : Database) (e : Event) (seq : ℕ) : Except StoreError Database := do
  if e.type = "agent.registered" then
    let agentId := (← item e.payload "agent_id").pyStr
    db.rewriteProjection "agent" agentId seq (nextRegisteredAgent e agentId)
  else if startsWith "runtime.agent." e.type then
    match truthyText (e.get? "agent_id") with
    | none => return db
    | some agentId => db.rewriteProjection "agent" agentId seq (nextAgentRuntime e)
  else if e.type = "mailbox.delivery.sent" ∨ e.type = "mailbox.delivery.acked" then
    match truthyText (e.get? "mailbox_id") with
    | none => return db
    | some agentId => db.rewriteProjection "agent" agentId seq (nextMailbox e)
  else return db

/-- The assignment branches of `_project_event`. -/
def projectAssignment (db : Database) (e : Event) (seq : ℕ) : Except StoreError Database := do
  if e.type = "assignment.created" then
    let assignmentId := (← item e.payload "assignment_id").pyStr
    db.rewriteProjection "assignment" assignmentId seq (fun _ => .ok (some (createdAssignment e)))
  else
    match truthyText (e.get? "assignment_id"), assignmentStatusByType.lookup e.type with
    | some assignmentId, some status =>
        db.rewriteProjection "assignment" assignmentId seq
          (fun old => .ok (nextAssignment e status old))
    | _, _ => return db

/-- `_project_lease`, for the events it is called with. -/
def projectLease (db : Database) (e : Event) (seq : ℕ) : Except StoreError Database :=
  if startsWith "assignment.lease." e.type then
    match truthyText (e.get? "assignment_id") with
    | none => .ok db
    | some assignmentId =>
        db.rewriteProjection "lease" assignmentId seq (fun old => .ok (nextLease e assignmentId old))
  else .ok db

/-- The branches that store an event's payload under the run and the agent. -/
def projectPayload (db : Database) (kind : String) (types : List String) (e : Event) (seq : ℕ) :
    Except StoreError Database := do
  if e.type ∈ types then
    let agentId := (← item e.payload "agent_id").pyStr
    return db.saveProjection kind (e.runId ++ ":" ++ agentId) (stampedPayload e) seq
  else return db

/-- `_project_memory`, `_project_evolution` and `_project_dream`. -/
def projectEntity (db : Database) (kind family idKey : String) (next : Json → Option Dict → Dict)
    (e : Event) (seq : ℕ) : Except StoreError Database :=
  if startsWith family e.type then
    match e.get? idKey with
    | some v =>
        if v.truthy then
          db.rewriteProjection kind v.pyStr seq (fun old => .ok (some (next v old)))
        else .ok db
    | none => .ok db
  else .ok db

/-- `_project_event`. -/
def projectEvent (db : Database) (e : Event) (seq : ℕ) : Except StoreError Database := do
  let db ← db.rewriteProjection "run" e.runId seq (nextRun e seq)
  let db ← db.projectAgent e seq
  let db ← db.projectAssignment e seq
  let db ← db.projectLease e seq
  let db ← db.projectPayload "context" ["context.compiled", "context.manifest.compiled"] e seq
  let db ← db.projectPayload "capability_manifest" ["capability.manifest.compiled"] e seq
  let db ← db.projectEntity "memory" "memory." "candidate_id" (nextGoverned e memoryStatusByType) e seq
  let db ← db.projectEntity "evolution" "evolution." "candidate_id"
    (nextGoverned e evolutionStatusByType) e seq
  db.projectEntity "dream_job" "dream.job." "job_id" (nextDream e) e seq

/-! ### What a projection step leaves alone -/

/-- `db'` differs from `db` at most in the projections of one kind. -/
structure OnlyKind (kind : String) (db db' : Database) : Prop where
  events : db'.events = db.events
  commands : db'.commands = db.commands
  workClaims : db'.workClaims = db.workClaims
  modelCalls : db'.modelCalls = db.modelCalls
  others : ∀ kind' entityId, kind' ≠ kind →
    db'.loadProjection kind' entityId = db.loadProjection kind' entityId

theorem OnlyKind.refl (kind : String) (db : Database) : OnlyKind kind db db :=
  ⟨rfl, rfl, rfl, rfl, fun _ _ _ => rfl⟩

variable {db db' : Database} {e : Event} {seq : ℕ}

theorem onlyKind_save (db : Database) (kind entityId : String) (state : Dict) (seq : ℕ) :
    OnlyKind kind db (db.saveProjection kind entityId state seq) := by
  refine ⟨rfl, rfl, rfl, rfl, ?_⟩
  intro kind' entityId' h
  rw [loadProjection_saveProjection, if_neg (fun hk => h hk.1)]

theorem rewriteProjection_ok {kind entityId : String}
    {next : Option Dict → Except StoreError (Option Dict)}
    (h : db.rewriteProjection kind entityId seq next = .ok db') :
    ∃ r, next (db.loadProjection kind entityId) = .ok r ∧ OnlyKind kind db db' ∧
      ∀ entityId', db'.loadProjection kind entityId' =
        if entityId' = entityId then r.or (db.loadProjection kind entityId)
        else db.loadProjection kind entityId' := by
  unfold rewriteProjection at h
  obtain ⟨r, hr, h⟩ := bind_ok_iff.mp h
  refine ⟨r, hr, ?_⟩
  cases r with
  | none =>
      obtain rfl := Except.ok.inj h
      refine ⟨OnlyKind.refl _ _, ?_⟩
      intro entityId'
      split
      · rename_i heq
        rw [heq, Option.none_or]
      · rfl
  | some state =>
      obtain rfl := Except.ok.inj h
      refine ⟨onlyKind_save _ _ _ _ _, ?_⟩
      intro entityId'
      rw [loadProjection_saveProjection]
      simp

theorem onlyKind_rewrite {kind entityId : String}
    {next : Option Dict → Except StoreError (Option Dict)}
    (h : db.rewriteProjection kind entityId seq next = .ok db') : OnlyKind kind db db' :=
  let ⟨_, _, hk, _⟩ := rewriteProjection_ok h
  hk

theorem onlyKind_projectAgent (h : db.projectAgent e seq = .ok db') : OnlyKind "agent" db db' := by
  unfold projectAgent at h
  split at h
  · obtain ⟨_, _, h⟩ := bind_ok_iff.mp h
    exact onlyKind_rewrite h
  split at h
  · split at h
    · obtain rfl := Except.ok.inj h
      exact .refl _ _
    · exact onlyKind_rewrite h
  split at h
  · split at h
    · obtain rfl := Except.ok.inj h
      exact .refl _ _
    · exact onlyKind_rewrite h
  obtain rfl := Except.ok.inj h
  exact .refl _ _

theorem onlyKind_projectAssignment (h : db.projectAssignment e seq = .ok db') :
    OnlyKind "assignment" db db' := by
  unfold projectAssignment at h
  split at h
  · obtain ⟨_, _, h⟩ := bind_ok_iff.mp h
    exact onlyKind_rewrite h
  split at h
  · exact onlyKind_rewrite h
  · obtain rfl := Except.ok.inj h
    exact .refl _ _

theorem onlyKind_projectLease (h : db.projectLease e seq = .ok db') : OnlyKind "lease" db db' := by
  unfold projectLease at h
  split at h
  · split at h
    · obtain rfl := Except.ok.inj h
      exact .refl _ _
    · exact onlyKind_rewrite h
  · obtain rfl := Except.ok.inj h
    exact .refl _ _

theorem onlyKind_projectPayload {kind : String} {types : List String}
    (h : db.projectPayload kind types e seq = .ok db') : OnlyKind kind db db' := by
  unfold projectPayload at h
  split at h
  · obtain ⟨_, _, h⟩ := bind_ok_iff.mp h
    obtain rfl := Except.ok.inj h
    exact onlyKind_save _ _ _ _ _
  · obtain rfl := Except.ok.inj h
    exact .refl _ _

theorem onlyKind_projectEntity {kind family idKey : String} {next : Json → Option Dict → Dict}
    (h : db.projectEntity kind family idKey next e seq = .ok db') : OnlyKind kind db db' := by
  unfold projectEntity at h
  split at h
  · split at h
    · split at h
      · exact onlyKind_rewrite h
      · obtain rfl := Except.ok.inj h
        exact .refl _ _
    · obtain rfl := Except.ok.inj h
      exact .refl _ _
  · obtain rfl := Except.ok.inj h
    exact .refl _ _

/-- The stages of `_project_event`: each moves the projections of one kind. -/
theorem projectEvent_stages (h : db.projectEvent e seq = .ok db') :
    ∃ run agent assignment lease context manifest memory evolution : Database,
      db.rewriteProjection "run" e.runId seq (nextRun e seq) = .ok run ∧
      run.projectAgent e seq = .ok agent ∧
      agent.projectAssignment e seq = .ok assignment ∧
      assignment.projectLease e seq = .ok lease ∧
      OnlyKind "context" lease context ∧ OnlyKind "capability_manifest" context manifest ∧
      OnlyKind "memory" manifest memory ∧ OnlyKind "evolution" memory evolution ∧
      OnlyKind "dream_job" evolution db' := by
  unfold projectEvent at h
  obtain ⟨run, h1, h⟩ := bind_ok_iff.mp h
  obtain ⟨agent, h2, h⟩ := bind_ok_iff.mp h
  obtain ⟨assignment, h3, h⟩ := bind_ok_iff.mp h
  obtain ⟨lease, h4, h⟩ := bind_ok_iff.mp h
  obtain ⟨context, h5, h⟩ := bind_ok_iff.mp h
  obtain ⟨manifest, h6, h⟩ := bind_ok_iff.mp h
  obtain ⟨memory, h7, h⟩ := bind_ok_iff.mp h
  obtain ⟨evolution, h8, h⟩ := bind_ok_iff.mp h
  exact ⟨run, agent, assignment, lease, context, manifest, memory, evolution, h1, h2, h3, h4,
    onlyKind_projectPayload h5, onlyKind_projectPayload h6, onlyKind_projectEntity h7,
    onlyKind_projectEntity h8, onlyKind_projectEntity h⟩

/-- `db'` has the events, commands, claims and model calls of `db`. -/
structure OnlyProjections (db db' : Database) : Prop where
  events : db'.events = db.events
  commands : db'.commands = db.commands
  workClaims : db'.workClaims = db.workClaims
  modelCalls : db'.modelCalls = db.modelCalls

theorem OnlyKind.onlyProjections {kind : String} (h : OnlyKind kind db db') :
    OnlyProjections db db' :=
  ⟨h.events, h.commands, h.workClaims, h.modelCalls⟩

theorem OnlyProjections.trans {db'' : Database} (h : OnlyProjections db db')
    (h' : OnlyProjections db' db'') : OnlyProjections db db'' :=
  ⟨h'.events.trans h.events, h'.commands.trans h.commands, h'.workClaims.trans h.workClaims,
    h'.modelCalls.trans h.modelCalls⟩

theorem onlyProjections_projectEvent (h : db.projectEvent e seq = .ok db') :
    OnlyProjections db db' := by
  obtain ⟨run, agent, assignment, lease, context, manifest, memory, evolution, h1, h2, h3, h4, h5,
    h6, h7, h8, h9⟩ := projectEvent_stages h
  exact (onlyKind_rewrite h1).onlyProjections.trans
    ((onlyKind_projectAgent h2).onlyProjections.trans
    ((onlyKind_projectAssignment h3).onlyProjections.trans
    ((onlyKind_projectLease h4).onlyProjections.trans
    (h5.onlyProjections.trans (h6.onlyProjections.trans (h7.onlyProjections.trans
    (h8.onlyProjections.trans h9.onlyProjections)))))))

/-! ### The projections an event moves -/

/-- The projection of a run after an event. -/
theorem projectEvent_run (h : db.projectEvent e seq = .ok db') :
    ∃ r, nextRun e seq (db.loadProjection "run" e.runId) = .ok r ∧
      ∀ runId, db'.loadProjection "run" runId =
        if runId = e.runId then r.or (db.loadProjection "run" e.runId)
        else db.loadProjection "run" runId := by
  obtain ⟨run, agent, assignment, lease, context, manifest, memory, evolution, h1, h2, h3, h4, h5,
    h6, h7, h8, h9⟩ := projectEvent_stages h
  obtain ⟨r, hr, _, hload⟩ := rewriteProjection_ok h1
  refine ⟨r, hr, ?_⟩
  intro runId
  rw [h9.others _ _ (by decide), h8.others _ _ (by decide), h7.others _ _ (by decide),
    h6.others _ _ (by decide), h5.others _ _ (by decide),
    (onlyKind_projectLease h4).others _ _ (by decide),
    (onlyKind_projectAssignment h3).others _ _ (by decide),
    (onlyKind_projectAgent h2).others _ _ (by decide)]
  exact hload runId

/-- The projection of an assignment after an event. -/
def assignmentAfter (e : Event) (assignmentId : String) (old : Option Dict) : Option Dict :=
  if e.type = "assignment.created" then
    if (e.get? "assignment_id").map Json.pyStr = some assignmentId then some (createdAssignment e)
    else old
  else
    match assignmentStatusByType.lookup e.type with
    | some status =>
        if truthyText (e.get? "assignment_id") = some assignmentId then
          (nextAssignment e status old).or old
        else old
    | none => old

theorem projectEvent_assignment (h : db.projectEvent e seq = .ok db') (assignmentId : String) :
    db'.loadProjection "assignment" assignmentId =
      assignmentAfter e assignmentId (db.loadProjection "assignment" assignmentId) := by
  obtain ⟨run, agent, assignment, lease, context, manifest, memory, evolution, h1, h2, h3, h4, h5,
    h6, h7, h8, h9⟩ := projectEvent_stages h
  rw [h9.others _ _ (by decide), h8.others _ _ (by decide), h7.others _ _ (by decide),
    h6.others _ _ (by decide), h5.others _ _ (by decide),
    (onlyKind_projectLease h4).others _ _ (by decide),
    ← (onlyKind_rewrite h1).others "assignment" assignmentId (by decide),
    ← (onlyKind_projectAgent h2).others "assignment" assignmentId (by decide)]
  unfold projectAssignment at h3
  unfold assignmentAfter
  split at h3
  · rename_i hcreated
    rw [if_pos hcreated]
    obtain ⟨v, hv, h3⟩ := bind_ok_iff.mp h3
    have hitem : e.get? "assignment_id" = some v := by
      unfold item at hv
      split at hv
      · rename_i w hw
        rw [← Except.ok.inj hv]
        exact hw
      · cases hv
    obtain ⟨r, hr, _, hload⟩ := rewriteProjection_ok h3
    rw [hload, hitem]
    obtain rfl := Except.ok.inj hr
    simp only [Option.map_some, Option.some.injEq, Option.some_or]
    split
    · rename_i heq
      rw [if_pos heq.symm]
    · rename_i hne
      rw [if_neg (fun heq => hne heq.symm)]
  · rename_i hcreated
    rw [if_neg hcreated]
    split at h3
    · rename_i entity status hentity hstatus
      rw [hstatus]
      obtain ⟨r, hr, _, hload⟩ := rewriteProjection_ok h3
      obtain rfl := Except.ok.inj hr
      simp only [hload, hentity, Option.some.injEq]
      by_cases heq : entity = assignmentId
      · simp [heq]
      · rw [if_neg (fun h => heq h.symm), if_neg heq]
    · rename_i hnone
      obtain rfl := Except.ok.inj h3
      split
      · rename_i status hstatus
        split
        · rename_i hentity
          exact absurd hstatus (hnone _ _ hentity)
        · rfl
      · rfl

/-- The projection of a lease after an event. -/
def leaseAfter (e : Event) (assignmentId : String) (old : Option Dict) : Option Dict :=
  if startsWith "assignment.lease." e.type ∧ truthyText (e.get? "assignment_id") = some assignmentId
  then (nextLease e assignmentId old).or old
  else old

theorem projectEvent_lease (h : db.projectEvent e seq = .ok db') (assignmentId : String) :
    db'.loadProjection "lease" assignmentId =
      leaseAfter e assignmentId (db.loadProjection "lease" assignmentId) := by
  obtain ⟨run, agent, assignment, lease, context, manifest, memory, evolution, h1, h2, h3, h4, h5,
    h6, h7, h8, h9⟩ := projectEvent_stages h
  rw [h9.others _ _ (by decide), h8.others _ _ (by decide), h7.others _ _ (by decide),
    h6.others _ _ (by decide), h5.others _ _ (by decide),
    ← (onlyKind_rewrite h1).others "lease" assignmentId (by decide),
    ← (onlyKind_projectAgent h2).others "lease" assignmentId (by decide),
    ← (onlyKind_projectAssignment h3).others "lease" assignmentId (by decide)]
  unfold projectLease at h4
  unfold leaseAfter
  split at h4
  · rename_i hfamily
    split at h4
    · rename_i hentity
      obtain rfl := Except.ok.inj h4
      rw [if_neg (by simp [hentity])]
    · rename_i entity hentity
      obtain ⟨r, hr, _, hload⟩ := rewriteProjection_ok h4
      obtain rfl := Except.ok.inj hr
      simp only [hload, hfamily, hentity, Option.some.injEq, true_and]
      by_cases heq : entity = assignmentId
      · simp [heq]
      · rw [if_neg (fun h => heq h.symm), if_neg heq]
  · rename_i hfamily
    obtain rfl := Except.ok.inj h4
    rw [if_neg (fun h => hfamily h.1)]

end Database

end CrazyHarness
