import CrazyHarness.Runtime.Readiness

/-! # Runs of the cooperative scheduler

`scheduler_never_wedges`: no run of the scheduler comes to a ready delivery that is no longer pending,
and every wait that is resolved has made its agent ready, as long as no agent is made ready for a
delivery that is waiting for its step already, and no process dies between two facts that belong
together: an ack and the completion of the step, the end of a wait and the ready event that follows.

The code looks after neither: two wake-ups for one delivery make two ready events of it, and the
second one stays the first that every later call meets (`woken_twice`). -/

namespace CrazyHarness

open Lib CooperativeScheduler RuntimeM

/-! ### Steps -/

/-- No event of the log has the identifier, and no delivery is named after it. -/
def Unused (log : List Event) (id : String) : Prop :=
  ∀ e ∈ log, e.id ≠ id ∧ ((e.get? "delivery_id").getD .null).pyStr ≠ "event:" ++ id

instance (log : List Event) : DecidablePred (Unused log) :=
  fun id => inferInstanceAs (Decidable (∀ e ∈ log, e.id ≠ id ∧ _ ≠ "event:" ++ id))

/-- What others append: a delivery, or a fact that the scheduler does not read; it takes no notice of
a ready event or a completion without a `ready_id`. -/
inductive OutsideFact : Event → Prop
  | sent (mailboxId : String) (d : Delivery) (t : DateTime) : OutsideFact (sentEvent mailboxId d t)
  | other {e : Event} (h : e.type ∉ readinessFacts) : OutsideFact e
  | unnamed {e : Event} (htype : e.type = "runtime.agent.ready" ∨ e.type = "runtime.agent.step.completed")
      (hid : e.get? "ready_id" = none) : OutsideFact e

/-- Others have appended facts. -/
def OutsideFacts : List Event → List Event → Prop :=
  Relation.ReflTransGen (fun log log' => ∃ e, OutsideFact e ∧ log' = log ++ [e])

/-- The error is not the one of a delivery that is gone. -/
def Harmless (e : RuntimeError) : Prop := ∀ ready, e ≠ noLongerPending ready

/-- What each call replies and does.  An agent may send deliveries in its step, and may raise, but
not what the scheduler itself raises. -/
def schedulerStep (log : List Event) : (op : (withStore callbackInterface).Op) →
    (withStore callbackInterface).Reply op → List Event → Prop
  | .inl .now, (r : DateTime), log' => r.Aware ∧ log' = log
  | .inl .uuid4, (r : String), log' => Unused log r ∧ log' = log
  | .inl (.readAll none), r, log' => r = log ∧ log' = log
  | .inl (.append none e), r, log' => r = .ok e ∧ log' = log ++ [e]
  | .inr (.step _ _), (r : Except RuntimeError (Option WaitCondition)), log' =>
      (∀ e, r = .error e → Harmless e) ∧ OutsideFacts log log'
  | _, _, _ => False

/-- The event that a call appends. -/
def appendedBy : (withStore callbackInterface).Op → Option Event
  | .inl (.append none e) => some e
  | _ => none

/-- A ready event that the call appends is fresh. -/
def AppendsFresh (mailboxOf : String → String) (log : List Event)
    (op : (withStore callbackInterface).Op) : Prop :=
  ∀ e ∈ appendedBy op, FreshReady mailboxOf log e

instance (mailboxOf : String → String) (log : List Event) (op : (withStore callbackInterface).Op) :
    Decidable (AppendsFresh mailboxOf log op) :=
  inferInstanceAs (Decidable (∀ e ∈ appendedBy op, FreshReady mailboxOf log e))

/-- A step that appends no ready event but a fresh one. -/
def readyStep (mailboxOf : String → String) (log : List Event)
    (op : (withStore callbackInterface).Op) (r : (withStore callbackInterface).Reply op)
    (log' : List Event) : Prop :=
  schedulerStep log op r log' ∧ AppendsFresh mailboxOf log op

/-- The last fact calls for another one: it is an ack, or ends a wait, or delivers the event that ends
one. -/
def Owing (log : List Event) : Prop :=
  ∃ before e after, log = before ++ e :: after ∧
    ((e.type = "mailbox.delivery.acked" ∧ after = []) ∨
      (IsResolution e ∧ ∀ f ∈ after, f.type = "mailbox.delivery.sent" ∧ f.causationId = some e.id))

/-! ### What the code leaves -/

section settles

variable {mailboxOf : String → String} {registered : List String} {α β : Type} {log : List Event}

/-- How code ends: what it returns meets `post`; an error is harmless, and leaves a settled log. -/
def EndsIn (mailboxOf : String → String) (post : α → List Event → Prop) (log : List Event) :
    Except RuntimeError α → Prop
  | .ok a => post a log
  | .error e => Settled mailboxOf log ∧ Harmless e

/-- The code does not run into a delivery that is gone, and leaves a settled log where it is stopped,
but where the last fact calls for another one; what it returns meets `post`. -/
def Settles (mailboxOf : String → String) (post : α → List Event → Prop) (p : SchedulerM α)
    (log : List Event) : Prop :=
  Program.Safe (readyStep mailboxOf) (fun log (_ : Unit) => ¬ Owing log → Settled mailboxOf log) Eq
    (fun _ _ => True) (fun r log _ => EndsIn mailboxOf post log r) p log ()

theorem settles_pure {Q : α → List Event → Prop} {a : α} (h : Q a log) :
    Settles mailboxOf Q (pure a) log := h

theorem settles_throw {Q : α → List Event → Prop} {e : RuntimeError} (hs : Settled mailboxOf log)
    (he : Harmless e) :
    Settles mailboxOf Q (throw e : SchedulerM α) log := ⟨hs, he⟩

theorem settles_bind {P : α → List Event → Prop} {Q : β → List Event → Prop} {p : SchedulerM α}
    {f : α → SchedulerM β} (h : Settles mailboxOf P p log)
    (hf : ∀ a log, P a log → Settles mailboxOf Q (f a) log) :
    Settles mailboxOf Q (p >>= f) log :=
  RuntimeM.safe_bind h (fun a log _ ha => hf a log ha)

theorem Settles.weaken {P Q : α → List Event → Prop} {p : SchedulerM α}
    (h : Settles mailboxOf P p log) (hpost : ∀ a log, P a log → Q a log) :
    Settles mailboxOf Q p log := by
  refine Program.Safe.weaken h ?_
  intro r log _ hr
  cases r with
  | ok a => exact hpost a log hr
  | error e => exact hr

theorem settles_now {Q : DateTime → List Event → Prop} (h : ∀ t, Q t log) :
    Settles mailboxOf Q now log := by
  rintro _ _ r _ rfl hinv ⟨⟨-, rfl⟩, -⟩
  exact ⟨(), hinv, trivial, h r⟩

theorem settles_uuid {Q : String → List Event → Prop} (h : ∀ id, Unused log id → Q id log) :
    Settles mailboxOf Q uuid log := by
  rintro _ _ r _ rfl hinv ⟨⟨hunused, rfl⟩, -⟩
  exact ⟨(), hinv, trivial, h r hunused⟩

theorem settles_readAll {Q : List Event → List Event → Prop} (h : Q log log) :
    Settles mailboxOf Q (readAll none) log := by
  rintro _ _ r _ rfl hinv ⟨⟨rfl, rfl⟩, -⟩
  exact ⟨(), hinv, trivial, h⟩

theorem settles_append {Q : Event → List Event → Prop} {e : DateTime → Event}
    (h : ∀ t, FreshReady mailboxOf log (e t) →
      (Owing (log ++ [e t]) ∨ Settled mailboxOf (log ++ [e t])) ∧ Q (e t) (log ++ [e t])) :
    Settles mailboxOf Q (RuntimeM.append none e) log := by
  refine settles_bind (settles_now (Q := fun _ log' => log' = log) (fun _ => rfl)) ?_
  rintro t _ rfl
  rintro _ _ r _ rfl - ⟨⟨rfl, rfl⟩, hfresh⟩
  obtain ⟨hnext, hpost⟩ := h t (hfresh _ rfl)
  exact ⟨(), fun hnot => hnext.resolve_left hnot, trivial, hpost⟩

end settles

/-! ### Errors of what is read -/

section reads

variable {α β : Type}

/-- What is read fails with harmless errors only. -/
def FailsHarmlessly (x : Except RuntimeError α) : Prop := ∀ e, x = .error e → Harmless e

theorem harmless_runtimeError {message : String} (h : message.toList.head? ≠ some 'r') :
    Harmless (.runtimeError message) := by
  intro ready heq
  rw [RuntimeError.runtimeError.inj heq] at h
  simp at h

theorem failsHarmlessly_ok (a : α) : FailsHarmlessly (.ok a) := by
  intro e he
  cases he

theorem failsHarmlessly_error {e : RuntimeError} (h : Harmless e) :
    FailsHarmlessly (.error e : Except RuntimeError α) := by
  intro e' he
  obtain rfl := Except.error.inj he
  exact h

theorem failsHarmlessly_keyError (message : String) :
    FailsHarmlessly (.error (.keyError message) : Except RuntimeError α) :=
  failsHarmlessly_error (fun _ h => by cases h)

theorem failsHarmlessly_valueError (message : String) :
    FailsHarmlessly (.error (.valueError message) : Except RuntimeError α) :=
  failsHarmlessly_error (fun _ h => by cases h)

theorem failsHarmlessly_bind {x : Except RuntimeError α} {f : α → Except RuntimeError β}
    (h : FailsHarmlessly x) (hf : ∀ a, FailsHarmlessly (f a)) : FailsHarmlessly (x >>= f) := by
  cases x with
  | ok a => exact hf a
  | error e => exact failsHarmlessly_error (h e rfl)

theorem failsHarmlessly_mapM {f : β → Except RuntimeError α} (h : ∀ b, FailsHarmlessly (f b))
    (bs : List β) : FailsHarmlessly (bs.mapM f) := by
  induction bs with
  | nil => exact failsHarmlessly_ok []
  | cons b bs ih =>
      rw [List.mapM_cons]
      exact failsHarmlessly_bind (h b) (fun _ => failsHarmlessly_bind ih (fun _ => failsHarmlessly_ok _))

theorem failsHarmlessly_deliveryIdOf (e : Event) : FailsHarmlessly (deliveryIdOf e) := by
  unfold deliveryIdOf
  split
  · exact failsHarmlessly_keyError _
  · exact failsHarmlessly_ok _

theorem failsHarmlessly_carriedEvent (e : Event) : FailsHarmlessly (carriedEvent e) := by
  unfold carriedEvent
  split
  · exact failsHarmlessly_keyError _
  split
  · exact failsHarmlessly_valueError _
  · exact failsHarmlessly_ok _

theorem failsHarmlessly_pendingOf (acked seen : List String) (sent : List Event) :
    FailsHarmlessly (pendingOf acked seen sent) := by
  induction sent generalizing seen with
  | nil => exact failsHarmlessly_ok []
  | cons e sent ih =>
      refine failsHarmlessly_bind (failsHarmlessly_deliveryIdOf e) ?_
      intro id
      split
      · exact ih seen
      · refine failsHarmlessly_bind (failsHarmlessly_carriedEvent e) ?_
        intro event
        exact failsHarmlessly_bind (ih _) (fun _ => failsHarmlessly_ok _)

theorem failsHarmlessly_pendingIn (mailboxId : String) (log : List Event) :
    FailsHarmlessly (pendingIn mailboxId log) :=
  failsHarmlessly_bind (failsHarmlessly_mapM failsHarmlessly_deliveryIdOf _)
    (fun _ => failsHarmlessly_pendingOf _ _ _)

theorem failsHarmlessly_deliveryIn (mailboxId deliveryId : String) (log : List Event) :
    FailsHarmlessly (deliveryIn mailboxId deliveryId log) := by
  unfold deliveryIn
  split
  · exact failsHarmlessly_ok none
  · exact failsHarmlessly_bind (failsHarmlessly_carriedEvent _) (fun _ => failsHarmlessly_ok _)

theorem failsHarmlessly_fieldText (e : Event) (key : String) : FailsHarmlessly (fieldText e key) := by
  unfold fieldText
  cases e.get? key with
  | none => exact failsHarmlessly_keyError key
  | some v => exact failsHarmlessly_ok _

theorem failsHarmlessly_load (value : Json) : FailsHarmlessly (WaitCondition.load value) := by
  unfold WaitCondition.load
  refine failsHarmlessly_bind ?_ (fun fields => failsHarmlessly_bind ?_ (fun eventType =>
    failsHarmlessly_bind ?_ (fun deadline => ?_)))
  · cases value.asDict with
    | none => exact failsHarmlessly_error (fun _ h => by cases h)
    | some d => exact failsHarmlessly_ok d
  · cases fields.get? "event_type" with
    | none => exact failsHarmlessly_keyError _
    | some v => exact failsHarmlessly_ok v
  · unfold WaitCondition.deadlineOf
    split
    · exact failsHarmlessly_ok _
    split
    · exact failsHarmlessly_valueError _
    · exact failsHarmlessly_ok none
  · split
    · exact failsHarmlessly_ok _
    · exact failsHarmlessly_valueError _

theorem failsHarmlessly_activeOf (resolved : List String) (events : List Event) :
    FailsHarmlessly (activeOf resolved events) := by
  induction events with
  | nil => exact failsHarmlessly_ok []
  | cons e events ih =>
      refine failsHarmlessly_bind (failsHarmlessly_fieldText e _) ?_
      intro id
      split
      · exact ih
      · refine failsHarmlessly_bind ?_ (fun _ => failsHarmlessly_bind ih (fun _ => failsHarmlessly_ok _))
        cases e.get? "condition" with
        | none => exact failsHarmlessly_keyError _
        | some v => exact failsHarmlessly_load v

theorem failsHarmlessly_activeWaits (log : List Event) : FailsHarmlessly (activeWaits log) :=
  failsHarmlessly_bind (failsHarmlessly_mapM (fun e => failsHarmlessly_fieldText e _) _)
    (fun _ => failsHarmlessly_activeOf _ _)

end reads

/-! ### The code -/

section code

variable {mailboxOf : String → String} {registered : List String} {α : Type} {log : List Event}

theorem settles_ofLog {f : List Event → Except RuntimeError α} {Q : α → List Event → Prop}
    (hs : Settled mailboxOf log) (hf : FailsHarmlessly (f log))
    (h : ∀ a, f log = .ok a → Q a log) : Settles mailboxOf Q (DurableMailbox.ofLog f) log := by
  refine settles_bind (settles_readAll (Q := fun read log' => log = read ∧ log = log') ⟨rfl, rfl⟩) ?_
  rintro _ _ ⟨rfl, rfl⟩
  cases hresult : f log with
  | ok a => exact h a hresult
  | error e => exact ⟨hs, hf e hresult⟩

theorem settles_peek {Q : Option Delivery → List Event → Prop} {mailboxId : String}
    {p : Event → Bool} (hs : Settled mailboxOf log)
    (h : ∀ ds, pendingIn mailboxId log = .ok ds → Q (ds.find? (fun d => p d.event)) log) :
    Settles mailboxOf Q (peek mailboxId p) log := by
  have hpending : Settles mailboxOf (fun ds log' => pendingIn mailboxId log = .ok ds ∧ log' = log)
      (DurableMailbox.pending mailboxId) log :=
    settles_ofLog hs (failsHarmlessly_pendingIn _ _) (fun ds hds => ⟨hds, rfl⟩)
  refine settles_bind hpending ?_
  rintro ds _ ⟨hds, rfl⟩
  exact settles_pure (h ds hds)

theorem settles_appendFact {type : String} {payload : Dict} {Q : Event → List Event → Prop}
    (hlog : log = [] → Settled mailboxOf log)
    (h : ∀ e : Event, e.type = type → e.payload = payload → Unused log e.id →
      FreshReady mailboxOf log e →
      (Owing (log ++ [e]) ∨ Settled mailboxOf (log ++ [e])) ∧ Q e (log ++ [e])) :
    Settles mailboxOf Q (appendFact type payload) log := by
  refine settles_bind (settles_readAll (Q := fun read log' => log = read ∧ log = log') ⟨rfl, rfl⟩) ?_
  rintro _ _ ⟨rfl, rfl⟩
  cases hlast : log.getLast? with
  | none =>
      have hempty : log = [] := List.getLast?_eq_none_iff.mp hlast
      exact settles_throw (hlog hempty) (harmless_runtimeError (by decide))
  | some identity =>
      refine settles_bind (settles_uuid (Q := fun id log' => Unused log id ∧ log = log')
        (fun id hid => ⟨hid, rfl⟩)) ?_
      rintro id _ ⟨hid, rfl⟩
      exact settles_append (fun t hfresh => h _ rfl rfl hid hfresh)

/-- A fact that the scheduler does not rely on. -/
theorem settles_appendOther {type : String} {payload : Dict} (hs : Settled mailboxOf log)
    (htype : type ∉ readinessFacts) :
    Settles mailboxOf (fun e log' => e.type = type ∧ log' = log ++ [e] ∧ Settled mailboxOf log')
      (appendFact type payload) log := by
  refine settles_appendFact (fun _ => hs) ?_
  rintro e rfl - - -
  exact ⟨.inr (hs.other htype), rfl, rfl, hs.other htype⟩

theorem settles_queue {agentId : String} {delivery : Option Delivery}
    (hlog : log = [] → Settled mailboxOf log)
    (h : ∀ e, QueuedFor agentId delivery e → FreshReady mailboxOf log e →
      Settled mailboxOf (log ++ [e])) :
    Settles mailboxOf (fun _ log' => Settled mailboxOf log') (queue agentId delivery) log := by
  refine settles_bind (settles_uuid (Q := fun _ log' => log = log') (fun _ _ => rfl)) ?_
  rintro readyId _ rfl
  have hfact : Settles mailboxOf (fun _ log' => Settled mailboxOf log')
      (appendFact "runtime.agent.ready" ([("agent_id", .str agentId), ("ready_id", .str readyId)] ++
        deliveryFields delivery)) log := by
    refine settles_appendFact hlog ?_
    intro e htype hpayload _ hfresh
    have hqueued : QueuedFor agentId delivery e := by
      cases delivery <;> constructor <;>
        simp [htype, Event.get?, hpayload, deliveryFields, Dict.get?_cons]
    exact ⟨.inr (h e hqueued hfresh), h e hqueued hfresh⟩
  exact settles_bind hfact (fun _ _ hs => settles_pure hs)

/-- An agent is made ready while nothing is owed. -/
theorem settles_queueSettled {agentId : String} {delivery : Option Delivery}
    (hs : Settled mailboxOf log) :
    Settles mailboxOf (fun _ log' => Settled mailboxOf log') (queue agentId delivery) log := by
  refine settles_queue (fun _ => hs) ?_
  intro e he hfresh
  refine hs.queued rfl (fun _ _ _ hpending => hpending) he hfresh (resumed_append hs.resumed ?_)
  rintro (hsatisfied | htimedOut)
  · rw [he.type] at hsatisfied
    exact absurd hsatisfied (by decide)
  · rw [he.type] at htimedOut
    exact absurd htimedOut (by decide)

theorem settles_resume {agentId : String} {d : Delivery} (hlog : log ≠ [])
    (h : ∀ e, QueuedFor agentId (some d) e → FreshReady mailboxOf log e →
      Settled mailboxOf (log ++ [e])) :
    Settles mailboxOf (fun _ log' => Settled mailboxOf log') (resume agentId d) log := by
  refine settles_bind (settles_queue (fun hempty => absurd hempty hlog) h) ?_
  intro _ log' hs
  exact settles_bind (settles_appendOther hs (by decide)) (fun _ _ hs' => settles_pure hs'.2.2)

/-- What is resolved in a log that has grown by a resolution, facts about it, and the ready event. -/
theorem resumed_after {resolution ready : Event} {m : List Event}
    (h : ∀ before e after, log = before ++ e :: after → IsResolution e →
      ∃ ready ∈ after, Resumes e ready)
    (hbetween : ∀ e ∈ m, ¬ IsResolution e) (hready : ¬ IsResolution ready)
    (hresumes : Resumes resolution ready) :
    ∀ before e after, log ++ resolution :: m ++ [ready] = before ++ e :: after →
      IsResolution e → ∃ ready ∈ after, Resumes e ready := by
  intro before e after heq he
  rcases List.eq_nil_or_concat after with rfl | ⟨rest, last, rfl⟩
  · obtain ⟨-, hsame⟩ := List.append_inj' heq rfl
    obtain rfl := List.head_eq_of_cons_eq hsame
    exact absurd he hready
  rw [List.concat_eq_append, ← List.cons_append, ← List.append_assoc] at heq
  obtain ⟨hlog, hsame⟩ := List.append_inj' heq rfl
  obtain rfl := List.head_eq_of_cons_eq hsame
  rcases List.append_eq_append_iff.mp hlog with ⟨common, hbefore, hrest⟩ | ⟨common, hbefore, hrest⟩
  · -- The resolution is the new one, or comes after it.
    cases common with
    | nil =>
        rw [List.nil_append] at hrest
        obtain ⟨rfl, -⟩ := List.cons.inj hrest
        exact ⟨ready, by simp, hresumes⟩
    | cons f common =>
        obtain ⟨rfl, htail⟩ := List.cons.inj hrest
        have hmem : e ∈ m := by
          rw [htail]
          simp
        exact absurd he (hbetween e hmem)
  · cases common with
    | nil =>
        rw [List.nil_append] at hrest
        obtain ⟨rfl, -⟩ := List.cons.inj hrest
        exact ⟨ready, by simp, hresumes⟩
    | cons f common =>
        obtain ⟨rfl, rfl⟩ := List.cons.inj hrest
        obtain ⟨r, hr, hresumed⟩ := h before e common hbefore he
        exact ⟨r, by simp [hr], hresumed⟩

theorem not_isResolution_of_type {e : Event} {t : String} (htype : e.type = t)
    (h : t ≠ "runtime.wait.satisfied" ∧ t ≠ "runtime.wait.timed_out") : ¬ IsResolution e := by
  rintro (hsatisfied | htimedOut)
  · exact h.1 (htype.symm.trans hsatisfied)
  · exact h.2 (htype.symm.trans htimedOut)

/-- A wait that is satisfied makes its agent ready. -/
theorem settles_satisfy {agentId : String} {waitId : Json} {registeredWait : Bool} {d : Delivery}
    (hs : Settled mailboxOf log) :
    Settles mailboxOf (fun _ log' => Settled mailboxOf log') (satisfy agentId waitId registeredWait d)
      log := by
  have hfact : Settles mailboxOf (fun e log' => log' = log ++ [e] ∧ e.type = "runtime.wait.satisfied" ∧
      e.get? "agent_id" = some (.str agentId) ∧ e.get? "delivery_id" = some (.str d.deliveryId))
      (appendFact "runtime.wait.satisfied" [("agent_id", .str agentId), ("wait_id", waitId),
        ("delivery_id", .str d.deliveryId), ("registered", .bool registeredWait)]) log := by
    refine settles_appendFact (fun _ => hs) ?_
    intro e htype hpayload _ _
    refine ⟨.inl ⟨log, e, [], rfl, .inr ⟨.inl htype, fun f hf => absurd hf List.not_mem_nil⟩⟩, rfl,
      htype, ?_, ?_⟩
    · rw [Event.get?, hpayload]
      rfl
    · rw [Event.get?, hpayload]
      rfl
  refine settles_bind hfact ?_
  rintro e _ ⟨rfl, htype, hagent, hdelivery⟩
  refine settles_resume (by simp) ?_
  intro ready hqueued hfresh
  refine hs.queued ?_ ?_ hqueued hfresh ?_
  · refine pendingReady_plain (.inl ?_)
    rw [htype]
    decide
  · intro mailboxId eventId d' hpending
    rwa [pendingFor_other (by rw [htype]; decide) (by rw [htype]; decide)]
  · refine resumed_after (m := []) hs.resumed (fun f hf => absurd hf List.not_mem_nil)
      (not_isResolution_of_type hqueued.type (by decide)) ⟨hqueued.type, ?_, ?_⟩
    · rw [hqueued.agent, hagent]
    · rw [if_pos htype, hqueued.deliveryId, hdelivery]
      rfl

/-- A wait whose time is over makes its agent ready for the event that says so. -/
theorem settles_timeOut {agentId : String} {waitId : Json} {c : WaitCondition} {deadline : DateTime}
    (hs : Settled mailboxOf log) :
    Settles mailboxOf (fun _ log' => Settled mailboxOf log')
      (timeOut mailboxOf agentId waitId c deadline) log := by
  have hfact : Settles mailboxOf (fun e log' => log' = log ++ [e] ∧ e.type = "runtime.wait.timed_out" ∧
      e.get? "agent_id" = some (.str agentId) ∧ Unused log e.id)
      (appendFact "runtime.wait.timed_out" [("agent_id", .str agentId), ("wait_id", waitId),
        ("event_type", .str c.eventType), ("correlation_id", .ofOption c.correlationId),
        ("deadline", .time deadline)]) log := by
    refine settles_appendFact (fun _ => hs) ?_
    intro e htype hpayload hunused _
    refine ⟨.inl ⟨log, e, [], rfl, .inr ⟨.inr htype, fun f hf => absurd hf List.not_mem_nil⟩⟩, rfl,
      htype, ?_, hunused⟩
    rw [Event.get?, hpayload]
    rfl
  refine settles_bind hfact ?_
  rintro e _ ⟨rfl, htype, hagent, hunused⟩
  -- The delivery is new, since no event of the log has the identifier.
  have hnone : deliveryIn (mailboxOf agentId) ("event:" ++ e.id) (log ++ [e]) = .ok none := by
    unfold deliveryIn
    rw [mailboxFacts_append, if_neg, List.append_nil, List.find?_eq_none.mpr]
    · intro f hf
      simpa using (hunused f (List.mem_filter.mp hf).1).2
    · rintro ⟨hsent, -⟩
      rw [htype] at hsent
      exact absurd hsent (by decide)
  have hsend : Settles mailboxOf (fun d log' => d = ⟨"event:" ++ e.id, e⟩ ∧
      ∃ t, log' = log ++ e :: [sentEvent (mailboxOf agentId) d t])
      (DurableMailbox.send none (mailboxOf agentId) e ("event:" ++ e.id)) (log ++ [e]) := by
    unfold DurableMailbox.send DurableMailbox.ofLog
    refine settles_bind (settles_bind (settles_readAll
      (Q := fun read log' => read = log ++ [e] ∧ log' = log ++ [e]) ⟨rfl, rfl⟩)
      (P := fun read log' => read = log ++ [e] ∧ log' = log ++ [e])
      (Q := fun found log' => found = none ∧ log' = log ++ [e]) ?_) ?_
    · rintro _ _ ⟨rfl, rfl⟩
      rw [hnone]
      exact ⟨rfl, rfl⟩
    · rintro _ _ ⟨rfl, rfl⟩
      refine settles_bind (settles_append (Q := fun _ log' => ∃ t, log' = log ++ e ::
        [sentEvent (mailboxOf agentId) ⟨"event:" ++ e.id, e⟩ t]) ?_) ?_
      · intro t _
        refine ⟨.inl ⟨log, e, [sentEvent (mailboxOf agentId) ⟨"event:" ++ e.id, e⟩ t], ?_,
          .inr ⟨.inr htype, ?_⟩⟩, t, ?_⟩
        · rw [List.append_assoc]
          rfl
        · intro f hf
          obtain rfl := List.mem_singleton.mp hf
          exact ⟨rfl, rfl⟩
        · rw [List.append_assoc]
          rfl
      · intro _ _ hlog
        exact settles_pure ⟨rfl, hlog⟩
  refine settles_bind hsend ?_
  rintro _ _ ⟨rfl, t, rfl⟩
  refine settles_resume (by simp) ?_
  intro ready hqueued hfresh
  have hsplit : log ++ e :: [sentEvent (mailboxOf agentId) ⟨"event:" ++ e.id, e⟩ t] =
      (log ++ [e]) ++ [sentEvent (mailboxOf agentId) ⟨"event:" ++ e.id, e⟩ t] := by
    rw [List.append_assoc]
    rfl
  refine hs.queued ?_ ?_ hqueued hfresh ?_
  · rw [hsplit, pendingReady_plain (.inl (show "mailbox.delivery.sent" ∉ _ by decide)),
      pendingReady_plain (.inl (by rw [htype]; decide))]
  · intro mailboxId eventId d' hpending
    rw [hsplit]
    refine pendingFor_sent ?_ _ _ _
    rwa [pendingFor_other (by rw [htype]; decide) (by rw [htype]; decide)]
  · refine resumed_after hs.resumed ?_ (not_isResolution_of_type hqueued.type (by decide))
      ⟨hqueued.type, ?_, ?_⟩
    · intro f hf
      obtain rfl := List.mem_singleton.mp hf
      exact not_isResolution_of_type (t := "mailbox.delivery.sent") rfl (by decide)
    · rw [hqueued.agent, hagent]
    · rw [if_neg (by rw [htype]; decide), hqueued.eventId]
      rfl

theorem settles_checkDeadline {agentId : String} {waitId : Json} {c : WaitCondition}
    (hs : Settled mailboxOf log) :
    Settles mailboxOf (fun _ log' => Settled mailboxOf log') (checkDeadline mailboxOf agentId waitId c)
      log := by
  unfold checkDeadline
  cases c.deadline with
  | none => exact settles_pure hs
  | some deadline =>
      refine settles_bind (settles_now (Q := fun _ log' => log = log') (fun _ => rfl)) ?_
      rintro clock _ rfl
      split
      · exact settles_pure hs
      · exact settles_timeOut hs

theorem settles_promote {wait : Event × WaitCondition} (hs : Settled mailboxOf log) :
    Settles mailboxOf (fun _ log' => Settled mailboxOf log') (promote mailboxOf registered wait) log := by
  unfold promote
  cases hagent : fieldText wait.1 "agent_id" with
  | error e => exact ⟨hs, failsHarmlessly_fieldText _ _ e hagent⟩
  | ok agentId =>
      refine settles_bind (P := fun agent log' => agentId = agent ∧ log = log') ⟨rfl, rfl⟩ ?_
      rintro _ _ ⟨rfl, rfl⟩
      split
      · refine settles_bind (settles_peek (Q := fun _ log' => log = log') hs (fun _ _ => rfl)) ?_
        rintro found _ rfl
        cases found with
        | some d => exact settles_satisfy hs
        | none => exact settles_checkDeadline hs
      · exact settles_pure hs

/-- The loop over the waits, round by round. -/
theorem settles_each (waits : List (Event × WaitCondition)) (hs : Settled mailboxOf log) :
    Settles mailboxOf (fun _ log' => Settled mailboxOf log') (each (promote mailboxOf registered) waits)
      log := by
  induction waits generalizing log with
  | nil => exact settles_pure hs
  | cons wait waits ih => exact settles_bind (settles_promote hs) (fun _ _ hs' => ih hs')

theorem settles_promoteWaiters (hs : Settled mailboxOf log) :
    Settles mailboxOf (fun _ log' => Settled mailboxOf log') (promoteWaiters mailboxOf registered)
      log := by
  refine settles_bind (settles_ofLog (Q := fun _ log' => log = log') hs
    (failsHarmlessly_activeWaits log) (fun _ _ => rfl)) ?_
  rintro waits _ rfl
  exact settles_each waits hs

theorem settles_requireAgent {agentId : String} (hs : Settled mailboxOf log) :
    Settles mailboxOf (fun _ log' => log = log') (requireAgent registered agentId) log := by
  unfold requireAgent
  split
  · exact settles_pure rfl
  · exact settles_throw hs (fun _ h => by cases h)

/-- `schedule` leaves a settled log. -/
theorem settles_schedule {agentId : String} (hs : Settled mailboxOf log) :
    Settles mailboxOf (fun _ log' => Settled mailboxOf log') (schedule registered agentId) log := by
  refine settles_bind (settles_requireAgent hs) ?_
  rintro _ _ rfl
  refine settles_bind (settles_ofLog (Q := fun _ log' => log = log') hs
    (failsHarmlessly_activeWaits log) (fun _ _ => rfl)) ?_
  rintro waits _ rfl
  split
  · refine settles_throw hs (harmless_runtimeError ?_)
    simp
  · exact settles_queueSettled hs

/-- `wake` leaves a settled log. -/
theorem settles_wake {agentId : String} (hs : Settled mailboxOf log) :
    Settles mailboxOf (fun _ log' => Settled mailboxOf log') (wake mailboxOf registered agentId)
      log := by
  refine settles_bind (settles_requireAgent hs) ?_
  rintro _ _ rfl
  refine settles_bind (settles_ofLog (Q := fun _ log' => log = log') hs
    (failsHarmlessly_activeWaits log) (fun _ _ => rfl)) ?_
  rintro waits _ rfl
  split
  · exact settles_bind (settles_promoteWaiters hs) (fun _ _ hs' => settles_pure hs')
  · refine settles_bind (settles_peek (Q := fun _ log' => log = log') hs (fun _ _ => rfl)) ?_
    rintro found _ rfl
    cases found with
    | none => exact settles_pure hs
    | some d => exact settles_bind (settles_queueSettled hs) (fun _ _ hs' => settles_pure hs')

/-! ### A step -/

/-- The ready event waits for its step, for the delivery if there is one. -/
structure AboutToStep (mailboxOf : String → String) (agentId : String) (ready : Event)
    (delivery : Option Delivery) (log : List Event) : Prop where
  settled : Settled mailboxOf log
  pending : ready ∈ pendingReady log
  names : ∀ d ∈ delivery, ReadyFor mailboxOf (mailboxOf agentId) d.deliveryId ready

/-- The delivery that a ready event names is there. -/
theorem settles_readyDelivery {agentId : String} {ready : Event} (hs : Settled mailboxOf log)
    (hready : ready ∈ pendingReady log) (hagent : ready.text "agent_id" = some agentId) :
    Settles mailboxOf (AboutToStep mailboxOf agentId ready) (readyDelivery (mailboxOf agentId) ready)
      log := by
  rcases hs.pending ready hready with hnone | ⟨agent, d, hagent', hdelivery, hevent, hfirst⟩
  · unfold readyDelivery
    rw [hnone]
    exact settles_pure ⟨hs, hready, fun d hd => by cases hd⟩
  · obtain rfl : agent = agentId := by
      rw [Event.text, hagent'] at hagent
      exact Option.some.inj hagent
    obtain ⟨ds, hds, hfind⟩ := pendingFor_eq_some.mp hfirst
    have hvalue : ready.value "event_id" = .str d.event.id := by
      rw [Event.value, hevent]
      rfl
    unfold readyDelivery
    rw [hvalue]
    refine settles_bind (settles_peek (Q := fun found log' => found = some d ∧ log = log') hs ?_) ?_
    · intro ds' hds'
      rw [hds] at hds'
      obtain rfl := Except.ok.inj hds'
      refine ⟨?_, rfl⟩
      rw [← hfind]
      congr 1
      funext d'
      simp [eq_comm]
    · rintro _ _ ⟨rfl, rfl⟩
      rw [confirmDelivery, if_pos hdelivery]
      refine settles_pure ⟨hs, hready, ?_⟩
      rintro d' hd'
      obtain rfl := Option.some.inj hd'
      exact ⟨agent, hagent, rfl, by rw [Event.text, hdelivery]; rfl⟩

theorem AboutToStep.grown {agentId : String} {ready e : Event} {delivery : Option Delivery}
    (h : AboutToStep mailboxOf agentId ready delivery log) (hs : Settled mailboxOf (log ++ [e]))
    (hready : pendingReady (log ++ [e]) = pendingReady log) :
    AboutToStep mailboxOf agentId ready delivery (log ++ [e]) := by
  refine ⟨hs, ?_, h.names⟩
  rw [hready]
  exact h.pending

/-- What others append meanwhile does no harm. -/
theorem AboutToStep.outside {agentId : String} {ready : Event} {delivery : Option Delivery}
    {log' : List Event} (h : AboutToStep mailboxOf agentId ready delivery log)
    (hfacts : OutsideFacts log log') : AboutToStep mailboxOf agentId ready delivery log' := by
  induction hfacts with
  | refl => exact h
  | tail _ hstep ih =>
      obtain ⟨e, he, rfl⟩ := hstep
      cases he with
      | sent mailboxId d t =>
          exact ih.grown (ih.settled.sent mailboxId d t)
            (pendingReady_plain (.inl (show "mailbox.delivery.sent" ∉ _ by decide)))
      | other htype =>
          refine ih.grown (ih.settled.other htype) (pendingReady_plain (.inl ?_))
          simp only [readinessFacts, List.mem_cons, List.not_mem_nil, or_false, not_or] at htype ⊢
          exact ⟨htype.1, htype.2.1⟩
      | unnamed htype hid =>
          exact ih.grown (ih.settled.unnamed htype hid) (pendingReady_plain (.inr hid))

/-- The delivery is acked, if there was one. -/
theorem settles_ackHandled {agentId : String} {ready : Event} {delivery : Option Delivery}
    (h : AboutToStep mailboxOf agentId ready delivery log) :
    Settles mailboxOf (fun _ log' => log' = log ∨ ∃ mailboxId d t,
        log' = log ++ [ackEvent mailboxId d t] ∧ ReadyFor mailboxOf mailboxId d.deliveryId ready)
      (ackHandled (mailboxOf agentId) delivery) log := by
  cases delivery with
  | none => exact settles_pure (.inl rfl)
  | some d =>
      have hs := h.settled
      have hpending : Settles mailboxOf (fun _ log' => log = log')
          (DurableMailbox.pending (mailboxOf agentId)) log :=
        settles_ofLog hs (failsHarmlessly_pendingIn _ _) (fun _ _ => rfl)
      refine settles_bind hpending ?_
      rintro ds _ rfl
      unfold DurableMailbox.ackPending
      split
      · have hfact : Settles mailboxOf (fun fact log' => log = log' ∧
            ∃ event, fact = ackEvent (mailboxOf agentId) ⟨d.deliveryId, event⟩)
            (DurableMailbox.ackEventOf (mailboxOf agentId) d.deliveryId) log := by
          refine settles_bind (settles_ofLog (Q := fun found log' => log = log' ∧
            ∀ d' ∈ found, d'.deliveryId = d.deliveryId) hs (failsHarmlessly_deliveryIn _ _ _) ?_) ?_
          · intro found hfound
            refine ⟨rfl, ?_⟩
            rintro d' hd'
            obtain rfl := Option.mem_def.mp hd'
            unfold deliveryIn at hfound
            split at hfound
            · cases Except.ok.inj hfound
            · obtain ⟨event, -, heq⟩ := bind_ok_iff.mp hfound
              rw [← Option.some.inj (Except.ok.inj heq)]
          · rintro found _ ⟨rfl, hfound⟩
            cases found with
            | none => exact settles_throw hs (fun _ heq => by cases heq)
            | some d' =>
                refine settles_pure ⟨rfl, d'.event, ?_⟩
                rw [← hfound d' rfl]
        refine settles_bind hfact ?_
        rintro fact _ ⟨rfl, event, rfl⟩
        refine settles_bind (settles_append (Q := fun _ log' => ∃ t, log' = log ++
          [ackEvent (mailboxOf agentId) ⟨d.deliveryId, event⟩ t]) ?_) ?_
        · exact fun t _ => ⟨.inl ⟨log, _, [], rfl, .inl ⟨rfl, rfl⟩⟩, t, rfl⟩
        · rintro _ _ ⟨t, rfl⟩
          exact settles_pure (.inr ⟨_, _, t, rfl, h.names d rfl⟩)
      · exact settles_pure (.inl rfl)

theorem settles_beginWait {agentId : String} {c : WaitCondition} (hs : Settled mailboxOf log) :
    Settles mailboxOf (fun _ log' => Settled mailboxOf log') (beginWait mailboxOf agentId c) log := by
  refine settles_bind (settles_uuid (Q := fun _ log' => log = log') (fun _ _ => rfl)) ?_
  rintro waitId _ rfl
  refine settles_bind (settles_peek (Q := fun _ log' => log = log') hs (fun _ _ => rfl)) ?_
  rintro found _ rfl
  cases found with
  | some d => exact settles_satisfy hs
  | none =>
      refine settles_bind (settles_appendOther hs (by decide)) ?_
      rintro _ log' ⟨-, -, hs'⟩
      exact settles_bind (settles_appendOther hs' (by decide)) (fun _ _ h => settles_pure h.2.2)

/-- The step of an agent that is ready leaves a settled log. -/
theorem settles_runReady {agentId : String} {ready : Event} (hs : Settled mailboxOf log)
    (hready : ready ∈ pendingReady log) (hagent : ready.text "agent_id" = some agentId) :
    Settles mailboxOf (fun _ log' => Settled mailboxOf log') (runReady mailboxOf agentId ready) log := by
  refine settles_bind (settles_readyDelivery hs hready hagent) ?_
  intro delivery log₁ h₁
  have hbusy : Settles mailboxOf (fun _ log' => AboutToStep mailboxOf agentId ready delivery log')
      (appendFact "runtime.agent.busy"
        [("agent_id", .str agentId), ("ready_id", ready.value "ready_id")]) log₁ := by
    refine (settles_appendOther h₁.settled (by decide)).weaken ?_
    rintro e _ ⟨htype, rfl, hs'⟩
    exact h₁.grown hs' (pendingReady_plain (.inl (by rw [htype]; decide)))
  refine settles_bind hbusy ?_
  intro _ log₂ h₂
  have hcall : Settles mailboxOf (fun _ log' => AboutToStep mailboxOf agentId ready delivery log')
      (callStep agentId delivery) log₂ := by
    rintro _ _ r log' rfl - ⟨⟨hraised, hfacts⟩, -⟩
    have h₃ := h₂.outside hfacts
    refine ⟨(), fun _ => h₃.settled, trivial, ?_⟩
    cases r with
    | ok nextWait => exact h₃
    | error e => exact ⟨h₃.settled, hraised e rfl⟩
  refine settles_bind hcall ?_
  intro nextWait log₃ h₃
  refine settles_bind (settles_ackHandled h₃) ?_
  intro _ log₄ hlog
  have hcompleted : Settles mailboxOf (fun _ log' => Settled mailboxOf log')
      (appendFact "runtime.agent.step.completed"
        [("agent_id", .str agentId), ("ready_id", ready.value "ready_id")]) log₄ := by
    have hmem := (List.mem_filter.mp h₃.pending).1
    refine settles_appendFact ?_ ?_
    · intro hempty
      rcases hlog with rfl | ⟨_, _, _, rfl, -⟩
      · rw [hempty] at hmem
        cases hmem
      · exact absurd hempty (by simp)
    · intro e htype hpayload _ _
      have hid : e.get? "ready_id" = ready.get? "ready_id" := by
        obtain ⟨-, -, id, hid, -⟩ := of_decide_eq_true (List.mem_filter.mp h₃.pending).2
        obtain ⟨v, hv, -⟩ := Option.map_eq_some_iff.mp hid
        rw [Event.get?, hpayload, hv]
        simp [Dict.get?_cons, Event.value, hv]
      have hs' := h₃.settled.completed h₃.pending hlog htype hid
      exact ⟨.inr hs', hs'⟩
  refine settles_bind hcompleted ?_
  intro _ log₅ h₅
  cases nextWait with
  | none => exact settles_bind (settles_appendOther h₅ (by decide)) (fun _ _ h => settles_pure h.2.2)
  | some c => exact settles_beginWait h₅

/-- `run_once` leaves a settled log. -/
theorem settles_runOnce (hs : Settled mailboxOf log) :
    Settles mailboxOf (fun _ log' => Settled mailboxOf log') (runOnce mailboxOf registered) log := by
  refine settles_bind (settles_promoteWaiters hs) ?_
  intro _ log₁ h₁
  refine settles_bind (settles_readAll (Q := fun read log' => log₁ = read ∧ log₁ = log') ⟨rfl, rfl⟩) ?_
  rintro _ _ ⟨rfl, rfl⟩
  cases hfind : (pendingReady log₁).find? (fun e => OfRegistered registered e) with
  | none => exact settles_pure h₁
  | some ready =>
      have hof : OfRegistered registered ready := by
        simpa using List.find?_some hfind
      obtain ⟨agentId, hagent, -⟩ := hof
      have htext : (ready.text "agent_id").getD "" = agentId := by
        rw [show ready.text "agent_id" = some agentId from hagent]
        rfl
      dsimp only
      rw [htext]
      exact settles_bind (settles_runReady h₁ (List.mem_of_find?_eq_some hfind) hagent)
        (fun _ _ h => settles_pure h)

end code

/-! ### Runs -/

/-- What a process can do with its scheduler. -/
inductive SchedulerCall where
  | schedule (agentId : String)
  | wake (agentId : String)
  | runOnce

/-- The code of a call. -/
def SchedulerCall.code (mailboxOf : String → String) (registered : List String) :
    SchedulerCall → SchedulerM Unit
  | .schedule agentId => CooperativeScheduler.schedule registered agentId
  | .wake agentId => do
      let _ ← CooperativeScheduler.wake mailboxOf registered agentId
      return ()
  | .runOnce => do
      let _ ← CooperativeScheduler.runOnce mailboxOf registered
      return ()

/-- A step of a run: a process makes a call, with the agents that it has registered; a process dies
in the middle of one; or others append what they may. -/
inductive SchedulerStep (mailboxOf : String → String) (log log' : List Event) : Prop
  | called {registered : List String} {call : SchedulerCall} {r : Except RuntimeError Unit}
      (h : Program.Runs (readyStep mailboxOf) (call.code mailboxOf registered) log r log') :
      SchedulerStep mailboxOf log log'
  | died {registered : List String} {call : SchedulerCall}
      {p : Program (withStore callbackInterface) (Except RuntimeError Unit)}
      (h : Program.Reaches (readyStep mailboxOf) (call.code mailboxOf registered) log p log')
      (howing : ¬ Owing log') : SchedulerStep mailboxOf log log'
  | outside (h : OutsideFacts log log') : SchedulerStep mailboxOf log log'

section runs

variable {mailboxOf : String → String} {registered : List String} {α : Type} {log log' : List Event}

theorem settles_code (call : SchedulerCall) (hs : Settled mailboxOf log) :
    Settles mailboxOf (fun _ log' => Settled mailboxOf log') (call.code mailboxOf registered) log := by
  cases call with
  | schedule agentId => exact settles_schedule hs
  | wake agentId => exact settles_bind (settles_wake hs) (fun _ _ h => settles_pure h)
  | runOnce => exact settles_bind (settles_runOnce hs) (fun _ _ h => settles_pure h)

theorem Settles.runs {Q : α → List Event → Prop} {p : SchedulerM α} {r : Except RuntimeError α}
    (h : Settles mailboxOf Q p log) (hs : Settled mailboxOf log)
    (hruns : Program.Runs (readyStep mailboxOf) p log r log') : EndsIn mailboxOf Q log' r := by
  obtain ⟨_, -, hend⟩ := Program.Safe.reaches h (fun _ => hs) (fun _ => rfl) hruns
  exact hend

theorem Settled.outside (h : Settled mailboxOf log) (hfacts : OutsideFacts log log') :
    Settled mailboxOf log' := by
  induction hfacts with
  | refl => exact h
  | tail _ hstep ih =>
      obtain ⟨e, he, rfl⟩ := hstep
      cases he with
      | sent mailboxId d t => exact ih.sent mailboxId d t
      | other htype => exact ih.other htype
      | unnamed htype hid => exact ih.unnamed htype hid

theorem Settled.step (h : Settled mailboxOf log) (hs : SchedulerStep mailboxOf log log') :
    Settled mailboxOf log' := by
  cases hs with
  | @called registered call r hruns =>
      have hend := (settles_code call h).runs h hruns
      cases r with
      | ok _ => exact hend
      | error e => exact hend.1
  | @died registered call p hreaches howing =>
      obtain ⟨_, hinv, -⟩ := Program.Safe.reaches (settles_code call h) (fun _ => h) (fun _ => rfl) hreaches
      exact hinv howing
  | outside hfacts => exact h.outside hfacts

/-- A log without facts of the scheduler is settled. -/
theorem settled_of_unused (h : ∀ e ∈ log, e.type ≠ "runtime.agent.ready" ∧ ¬ IsResolution e) :
    Settled mailboxOf log := by
  have hnone : pendingReady log = [] := by
    refine List.filter_eq_nil_iff.mpr ?_
    intro e he hpending
    exact (h e he).1 (of_decide_eq_true hpending : IsPendingReady _ e).1
  constructor
  · intro ready hready
    rw [hnone] at hready
    cases hready
  · intro ready hready
    rw [hnone] at hready
    cases hready
  · rintro before e after rfl he
    exact absurd he (h e (by simp)).2

/-- **The scheduler never wedges** in runs that make no agent ready twice for one delivery, and in which
no process dies where a fact calls for another one: ready events name pending deliveries, waits that are
resolved have made their agents ready, and `run_once` finds its delivery. -/
theorem scheduler_never_wedges
    (hstart : ∀ e ∈ log, e.type ≠ "runtime.agent.ready" ∧ ¬ IsResolution e)
    (hrun : Relation.ReflTransGen (SchedulerStep mailboxOf) log log') :
    Settled mailboxOf log' ∧ ∀ registered log'' ready,
      ¬ Program.Runs (readyStep mailboxOf) (runOnce mailboxOf registered) log'
        (.error (noLongerPending ready)) log'' := by
  have hs : Settled mailboxOf log' := by
    induction hrun with
    | refl => exact settled_of_unused hstart
    | tail _ hstep ih => exact ih.step hstep
  refine ⟨hs, ?_⟩
  intro registered log'' ready hruns
  exact ((settles_runOnce hs).runs hs hruns).2 ready rfl

end runs

/-! ### Two wake-ups -/

/-- Agents whose steps end without a wait, at one time. -/
def plainStrategy : Program.Strategy schedulerStep where
  act
    | .inl .now, log => some ((⟨0, some 0⟩, log) : DateTime × List Event)
    | .inl .uuid4, log =>
        if Unused log (uuid4 log.length) then some ((uuid4 log.length, log) : String × List Event) else none
    | .inl (.readAll none), log => some ((log, log) : List Event × List Event)
    | .inl (.append none e), log =>
        some ((.ok e, log ++ [e]) : Except StoreError Event × List Event)
    | .inr (.step _ _), log =>
        some ((.ok none, log) : Except RuntimeError (Option WaitCondition) × List Event)
    | _, _ => none
  sound := by
    intro op log r h
    split at h
    · obtain rfl := Option.some.inj h
      exact ⟨rfl, rfl⟩
    · split at h
      next hunused =>
        obtain rfl := Option.some.inj h
        exact ⟨hunused, rfl⟩
      next => cases h
    · obtain rfl := Option.some.inj h
      exact ⟨rfl, rfl⟩
    · obtain rfl := Option.some.inj h
      exact ⟨rfl, rfl⟩
    · obtain rfl := Option.some.inj h
      exact And.intro (fun e he => by cases he) Relation.ReflTransGen.refl
    · cases h

/-- Work for the builder. -/
def workRequested : Event where
  id := "work"
  runId := "run"
  taskId := "task"
  type := "work.requested"
  source := "human"
  payload := []
  createdAt := ⟨0, some 0⟩

/-- A log with a delivery of it. -/
def workSent : List Event :=
  [{ workRequested with id := "seed", type := "task.started" },
    sentEvent "builder" ⟨"event:work", workRequested⟩ ⟨0, some 0⟩]

/-- The log after a call that is alone. -/
def logAfter {α : Type} (p : SchedulerM α) (log : List Event) : List Event :=
  (plainStrategy.after 60 p log).2

/-- The call comes to an end that passes the test. -/
def endsWith {α : Type} (test : Except RuntimeError α → Bool) (p : SchedulerM α) (log : List Event) :
    Bool :=
  (plainStrategy.after 60 p log).1.result.any test

theorem runs_of_endsWith {α : Type} {test : Except RuntimeError α → Bool} {p : SchedulerM α}
    {log : List Event} (h : endsWith test p log) :
    ∃ r, test r ∧ Program.Runs schedulerStep p log r (logAfter p log) := by
  obtain ⟨r, hr, htest⟩ := (Option.any_eq_true _ _).mp h
  exact ⟨r, htest, plainStrategy.runs_of_result hr⟩

/-- The call has returned `True`. -/
def isTrue : Except RuntimeError Bool → Bool
  | .ok b => b
  | .error _ => false

/-- The call has failed for want of a delivery. -/
def isGone : Except RuntimeError Bool → Bool
  | .error (.runtimeError message) => message = "ready delivery is no longer pending: event:work"
  | _ => false

/-- The wake-up of the builder. -/
def wakeBuilder : SchedulerM Bool := wake id ["builder"] "builder"

/-- The log after two wake-ups. -/
def wokenTwice : List Event := logAfter wakeBuilder (logAfter wakeBuilder workSent)

/-- The log after the builder has handled its delivery. -/
def workHandled : List Event := logAfter (runOnce id ["builder"]) wokenTwice

/-- Two wake-ups for one delivery: the first call of `run_once` handles it, and all others fail. -/
theorem woken_twice :
    (∃ r, isTrue r ∧ Program.Runs schedulerStep wakeBuilder workSent r (logAfter wakeBuilder workSent)) ∧
    (∃ r, isTrue r ∧ Program.Runs schedulerStep wakeBuilder (logAfter wakeBuilder workSent) r wokenTwice) ∧
    (∃ r, isTrue r ∧ Program.Runs schedulerStep (runOnce id ["builder"]) wokenTwice r workHandled) ∧
    (∃ r, isGone r ∧ Program.Runs schedulerStep (runOnce id ["builder"]) workHandled r workHandled) ∧
    ¬ Settled id workHandled := by
  have hsame : logAfter (runOnce id ["builder"]) workHandled = workHandled := by
    decide +kernel
  have hgone := runs_of_endsWith (show endsWith isGone (runOnce id ["builder"]) workHandled by
    decide +kernel)
  rw [hsame] at hgone
  refine ⟨runs_of_endsWith (by decide +kernel), runs_of_endsWith (by decide +kernel),
    runs_of_endsWith (by decide +kernel), hgone, ?_⟩
  intro hs
  have hready : ∃ ready ∈ pendingReady workHandled, ready.value "event_id" ≠ .null ∧
      pendingFor workHandled "builder" "work" = none ∧ ready.get? "agent_id" = some (.str "builder") ∧
      ready.get? "event_id" = some (.str "work") := by
    decide +kernel
  obtain ⟨ready, hmem, hevent, hnone, hagent, hwork⟩ := hready
  rcases hs.pending ready hmem with hnull | ⟨agentId, d, hagent', -, hevent', hfirst⟩
  · exact hevent hnull
  · obtain rfl := Json.str.inj (Option.some.inj (hagent.symm.trans hagent'))
    rw [← Json.str.inj (Option.some.inj (hwork.symm.trans hevent')), id, hnone] at hfirst
    cases hfirst

/-- The log after a call that makes no agent ready twice. -/
def freshAfter {α : Type} (p : SchedulerM α) (log : List Event) : List Event :=
  ((plainStrategy.restrict (AppendsFresh id)).after 60 p log).2

theorem runs_freshAfter {p : SchedulerM Unit} {log : List Event} {r : Except RuntimeError Unit}
    (h : ((plainStrategy.restrict (AppendsFresh id)).after 60 p log).1.result = some r) :
    Program.Runs (readyStep id) p log r (freshAfter p log) :=
  Program.Strategy.runs_of_result _ h

/-- A call as a step of a run. -/
theorem schedulerStep_freshAfter {call : SchedulerCall} {log : List Event}
    (h : ((plainStrategy.restrict (AppendsFresh id)).after 60 (call.code id ["builder"]) log).1.result.isSome) :
    SchedulerStep id log (freshAfter (call.code id ["builder"]) log) := by
  obtain ⟨r, hr⟩ := Option.isSome_iff_exists.mp h
  exact .called (runs_freshAfter hr)

/-- The builder is woken and takes its step. -/
def wokenOnce : List Event :=
  freshAfter (SchedulerCall.runOnce.code id ["builder"])
    (freshAfter ((SchedulerCall.wake "builder").code id ["builder"]) workSent)

/-- One wake-up and one step: the delivery is handled, and nothing is pending. -/
theorem woken_once : (∃ e ∈ wokenOnce, e.type = "mailbox.delivery.acked") ∧ pendingReady wokenOnce = [] ∧
    Settled id wokenOnce := by
  refine ⟨by decide +kernel, by decide +kernel, ?_⟩
  have hwake : SchedulerStep id workSent
      (freshAfter ((SchedulerCall.wake "builder").code id ["builder"]) workSent) :=
    schedulerStep_freshAfter (by decide +kernel)
  have hstep : SchedulerStep id
      (freshAfter ((SchedulerCall.wake "builder").code id ["builder"]) workSent) wokenOnce :=
    schedulerStep_freshAfter (by decide +kernel)
  exact (scheduler_never_wedges (by decide) ((Relation.ReflTransGen.single hwake).tail hstep)).1

end CrazyHarness
