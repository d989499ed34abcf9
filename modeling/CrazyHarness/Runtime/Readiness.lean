import CrazyHarness.Runtime.Cooperative

/-! # Ready deliveries

What the cooperative scheduler relies on when it reads its log back (`Settled`): every ready event that
is not completed and names a delivery names one that is pending, no two of them name the same one, and
every wait that is resolved has made its agent ready.  The lemmas say which facts keep this. -/

namespace CrazyHarness

open Lib CooperativeScheduler

/-! ### Pending deliveries -/

/-- The first pending delivery of the event, as `_ready_delivery` looks for it. -/
def pendingFor (log : List Event) (mailboxId eventId : String) : Option Delivery :=
  match pendingIn mailboxId log with
  | .ok ds => ds.find? (fun d => d.event.id = eventId)
  | .error _ => none

section pending

variable {log : List Event} {mailboxId eventId : String} {d : Delivery}

theorem pendingFor_eq_some : pendingFor log mailboxId eventId = some d ↔
    ∃ ds, pendingIn mailboxId log = .ok ds ∧ ds.find? (fun d => d.event.id = eventId) = some d := by
  unfold pendingFor
  cases pendingIn mailboxId log with
  | ok ds => simp
  | error e => simp

theorem pendingFor_event (h : pendingFor log mailboxId eventId = some d) : d.event.id = eventId := by
  obtain ⟨ds, -, hfind⟩ := pendingFor_eq_some.mp h
  simpa using List.find?_some hfind

theorem mailboxFacts_append (log : List Event) (e : Event) (type mailboxId : String) :
    mailboxFacts (log ++ [e]) type mailboxId = mailboxFacts log type mailboxId ++
      if e.type = type ∧ e.get? "mailbox_id" = some (.str mailboxId) then [e] else [] := by
  unfold mailboxFacts
  rw [List.filter_append, List.filter_singleton]
  simp [decide_eq_true_eq]

/-- A fact of another kind changes no inbox. -/
theorem pendingIn_other {e : Event} (hsent : e.type ≠ "mailbox.delivery.sent")
    (hacked : e.type ≠ "mailbox.delivery.acked") :
    pendingIn mailboxId (log ++ [e]) = pendingIn mailboxId log := by
  unfold pendingIn
  rw [mailboxFacts_append, mailboxFacts_append, if_neg (fun h => hacked h.1),
    if_neg (fun h => hsent h.1), List.append_nil, List.append_nil]

/-- A delivery that is sent comes last, if it comes at all. -/
theorem pendingOf_sent {acked seen : List String} {sent : List Event} {ds : List Delivery}
    (h : pendingOf acked seen sent = .ok ds) {e : Event} {id : String} {event : Event}
    (hid : deliveryIdOf e = .ok id) (hevent : carriedEvent e = .ok event) :
    ∃ last, pendingOf acked seen (sent ++ [e]) = .ok (ds ++ last) := by
  induction sent generalizing seen ds with
  | nil =>
      obtain rfl := Except.ok.inj h
      rw [List.nil_append, pendingOf, hid, ok_bind]
      split
      next => exact ⟨[], rfl⟩
      next => exact ⟨[⟨id, event⟩], by rw [hevent, ok_bind]; rfl⟩
  | cons f sent ih =>
      unfold pendingOf at h
      obtain ⟨fid, hfid, h⟩ := bind_ok_iff.mp h
      rw [List.cons_append, pendingOf, hfid, ok_bind]
      split at h
      next hskip =>
        rw [if_pos hskip]
        exact ih h
      next hnew =>
        obtain ⟨fevent, hfevent, h⟩ := bind_ok_iff.mp h
        obtain ⟨rest, hrest, h⟩ := bind_ok_iff.mp h
        obtain rfl := Except.ok.inj h
        obtain ⟨last, hlast⟩ := ih hrest
        rw [if_neg hnew, hfevent, ok_bind, hlast, ok_bind]
        exact ⟨last, rfl⟩

/-- An ack takes its delivery out, and no other. -/
theorem pendingOf_acked {acked seen seen' : List String} {sent : List Event} {ds : List Delivery}
    {id : String} (h : pendingOf acked seen sent = .ok ds)
    (hseen : ∀ other, other ≠ id → (other ∈ seen' ↔ other ∈ seen)) :
    pendingOf (acked ++ [id]) seen' sent = .ok (ds.filter (fun d => d.deliveryId ≠ id)) := by
  induction sent generalizing seen seen' ds with
  | nil =>
      obtain rfl := Except.ok.inj h
      rfl
  | cons f sent ih =>
      unfold pendingOf at h
      obtain ⟨fid, hfid, h⟩ := bind_ok_iff.mp h
      rw [pendingOf, hfid, ok_bind]
      by_cases hsame : fid = id
      · -- The facts of the acked delivery are all skipped.
        subst hsame
        rw [if_pos (.inl (List.mem_append_right _ List.mem_cons_self))]
        split at h
        next => exact ih h hseen
        next =>
          obtain ⟨fevent, -, h⟩ := bind_ok_iff.mp h
          obtain ⟨rest, hrest, h⟩ := bind_ok_iff.mp h
          obtain rfl := Except.ok.inj h
          rw [List.filter_cons_of_neg (by simp)]
          refine ih hrest ?_
          intro other hne
          rw [hseen other hne, List.mem_cons]
          exact ⟨.inr, fun hin => hin.resolve_left hne⟩
      · have hskip : fid ∈ acked ++ [id] ∨ fid ∈ seen' ↔ fid ∈ acked ∨ fid ∈ seen := by
          rw [hseen fid hsame, List.mem_append, List.mem_singleton]
          tauto
        split at h
        next hold =>
          rw [if_pos (hskip.mpr hold)]
          exact ih h hseen
        next hnew =>
          obtain ⟨fevent, hfevent, h⟩ := bind_ok_iff.mp h
          obtain ⟨rest, hrest, h⟩ := bind_ok_iff.mp h
          obtain rfl := Except.ok.inj h
          have hseen' : ∀ other, other ≠ id → (other ∈ fid :: seen' ↔ other ∈ fid :: seen) := by
            intro other hne
            rw [List.mem_cons, List.mem_cons, hseen other hne]
          rw [if_neg (fun hin => hnew (hskip.mp hin)), hfevent, ok_bind, ih hrest hseen', ok_bind,
            List.filter_cons_of_pos (by simpa using hsame)]
          rfl

theorem pendingFor_other {e : Event} (hsent : e.type ≠ "mailbox.delivery.sent")
    (hacked : e.type ≠ "mailbox.delivery.acked") :
    pendingFor (log ++ [e]) mailboxId eventId = pendingFor log mailboxId eventId := by
  unfold pendingFor
  rw [pendingIn_other hsent hacked]

theorem deliveryIdOf_sentEvent (mailboxId : String) (d : Delivery) (t : DateTime) :
    deliveryIdOf (sentEvent mailboxId d t) = .ok d.deliveryId := by
  simp [deliveryIdOf, sentEvent, Event.get?, Dict.get?_cons]

theorem carriedEvent_sentEvent (mailboxId : String) (d : Delivery) (t : DateTime) :
    carriedEvent (sentEvent mailboxId d t) = .ok d.event := by
  simp [carriedEvent, sentEvent, Event.get?, Dict.get?_cons]

theorem deliveryIdOf_ackEvent (mailboxId : String) (d : Delivery) (t : DateTime) :
    deliveryIdOf (ackEvent mailboxId d t) = .ok d.deliveryId := by
  simp [deliveryIdOf, ackEvent, Event.get?, Dict.get?_cons]

/-- A delivery that is pending stays so when another one is sent. -/
theorem pendingFor_sent (h : pendingFor log mailboxId eventId = some d) (m : String) (d' : Delivery)
    (t : DateTime) : pendingFor (log ++ [sentEvent m d' t]) mailboxId eventId = some d := by
  obtain ⟨ds, hds, hfind⟩ := pendingFor_eq_some.mp h
  obtain ⟨acked, hacked, hpending⟩ := bind_ok_iff.mp hds
  suffices hlast : ∃ last, pendingIn mailboxId (log ++ [sentEvent m d' t]) = .ok (ds ++ last) by
    obtain ⟨last, hlast⟩ := hlast
    refine pendingFor_eq_some.mpr ⟨_, hlast, ?_⟩
    rw [List.find?_append, hfind]
    rfl
  unfold pendingIn
  rw [mailboxFacts_append, if_neg (fun hin => absurd hin.1 (show ¬ "mailbox.delivery.sent" = _ by decide)),
    List.append_nil, hacked, ok_bind, mailboxFacts_append]
  split
  next =>
    exact pendingOf_sent hpending (deliveryIdOf_sentEvent m d' t) (carriedEvent_sentEvent m d' t)
  next => exact ⟨[], by rw [List.append_nil, List.append_nil]; exact hpending⟩

/-- An ack takes its delivery out of its inbox. -/
theorem pendingIn_acked {ds : List Delivery} (h : pendingIn mailboxId log = .ok ds) (d' : Delivery)
    (t : DateTime) : pendingIn mailboxId (log ++ [ackEvent mailboxId d' t]) =
      .ok (ds.filter (fun d => d.deliveryId ≠ d'.deliveryId)) := by
  obtain ⟨acked, hacked, hpending⟩ := bind_ok_iff.mp h
  have hfact : (ackEvent mailboxId d' t).type = "mailbox.delivery.acked" ∧
      (ackEvent mailboxId d' t).get? "mailbox_id" = some (.str mailboxId) := ⟨rfl, rfl⟩
  unfold pendingIn
  rw [mailboxFacts_append, if_pos hfact, mailboxFacts_append,
    if_neg (fun hin => absurd hin.1 (show ¬ "mailbox.delivery.acked" = _ by decide)),
    List.append_nil, List.mapM_append, hacked, ok_bind, List.mapM_cons, List.mapM_nil,
    deliveryIdOf_ackEvent]
  exact pendingOf_acked hpending (fun other _ => Iff.rfl)

/-- A fact of another inbox changes nothing. -/
theorem pendingIn_elsewhere {e : Event} (h : e.get? "mailbox_id" ≠ some (.str mailboxId)) :
    pendingIn mailboxId (log ++ [e]) = pendingIn mailboxId log := by
  unfold pendingIn
  rw [mailboxFacts_append, if_neg (fun hin => h hin.2), List.append_nil, mailboxFacts_append,
    if_neg (fun hin => h hin.2), List.append_nil]

/-- A delivery that is pending stays so when another one is acked. -/
theorem pendingFor_acked (h : pendingFor log mailboxId eventId = some d) {m : String} {d' : Delivery}
    {t : DateTime} (hne : m = mailboxId → d'.deliveryId ≠ d.deliveryId) :
    pendingFor (log ++ [ackEvent m d' t]) mailboxId eventId = some d := by
  obtain ⟨ds, hds, hfind⟩ := pendingFor_eq_some.mp h
  by_cases hmailbox : m = mailboxId
  · subst hmailbox
    refine pendingFor_eq_some.mpr ⟨_, pendingIn_acked hds d' t, ?_⟩
    rw [List.find?_filter]
    have hd : d.event.id = eventId := pendingFor_event h
    obtain ⟨hmatch, before, after, rfl, hbefore⟩ := List.find?_eq_some_iff_append.mp hfind
    refine List.find?_eq_some_iff_append.mpr ⟨?_, before, after, rfl, ?_⟩
    · simpa [hd] using (hne rfl).symm
    · intro f hf
      have hother := hbefore f hf
      simp only [Bool.not_eq_true', decide_eq_false_iff_not] at hother
      simp [hother]
  · refine pendingFor_eq_some.mpr ⟨ds, ?_, hfind⟩
    rw [pendingIn_elsewhere, hds]
    intro heq
    refine hmailbox (Json.str.inj (Option.some.inj ?_))
    rw [← heq]
    rfl

end pending

/-! ### The invariant -/

/-- The event makes an agent ready for the delivery of the mailbox. -/
def ReadyFor (mailboxOf : String → String) (mailboxId deliveryId : String) (e : Event) : Prop :=
  ∃ agentId ∈ e.text "agent_id", mailboxOf agentId = mailboxId ∧ e.text "delivery_id" = some deliveryId

instance (mailboxOf : String → String) (mailboxId deliveryId : String) :
    DecidablePred (ReadyFor mailboxOf mailboxId deliveryId) :=
  fun _ => inferInstanceAs (Decidable (∃ agentId ∈ Event.text _ _, _))

/-- The delivery that a ready event names, if it names one, is pending. -/
def NamesPending (mailboxOf : String → String) (log : List Event) (ready : Event) : Prop :=
  ready.value "event_id" = .null ∨ ∃ agentId d, ready.get? "agent_id" = some (.str agentId) ∧
    ready.get? "delivery_id" = some (.str d.deliveryId) ∧
    ready.get? "event_id" = some (.str d.event.id) ∧
    pendingFor log (mailboxOf agentId) d.event.id = some d

/-- The agent whose wait is resolved is ready: for the delivery that satisfies it, or for the event
that says that the time is over. -/
def Resumes (resolution ready : Event) : Prop :=
  ready.type = "runtime.agent.ready" ∧ ready.get? "agent_id" = resolution.get? "agent_id" ∧
    if resolution.type = "runtime.wait.satisfied" then
      ready.get? "delivery_id" = resolution.get? "delivery_id"
    else ready.get? "event_id" = some (.str resolution.id)

/-- What the scheduler relies on when it reads its log. -/
structure Settled (mailboxOf : String → String) (log : List Event) : Prop where
  pending : ∀ ready ∈ pendingReady log, NamesPending mailboxOf log ready
  apart : ∀ ready ∈ pendingReady log, ∀ other ∈ pendingReady log, ∀ mailboxId deliveryId,
    ReadyFor mailboxOf mailboxId deliveryId ready → ReadyFor mailboxOf mailboxId deliveryId other →
      ready = other
  resumed : ∀ before e after, log = before ++ e :: after → IsResolution e →
    ∃ ready ∈ after, Resumes e ready

/-- No ready event that is not completed names the delivery, and it is the first one that is pending
with its event. -/
def FreshReady (mailboxOf : String → String) (log : List Event) (e : Event) : Prop :=
  e.type = "runtime.agent.ready" → ∀ agentId ∈ e.text "agent_id", ∀ deliveryId ∈ e.text "delivery_id",
    ∀ eventId ∈ e.text "event_id",
      (∀ ready ∈ pendingReady log, ¬ ReadyFor mailboxOf (mailboxOf agentId) deliveryId ready) ∧
        (pendingFor log (mailboxOf agentId) eventId).map Delivery.deliveryId = some deliveryId

instance (mailboxOf : String → String) (log : List Event) :
    DecidablePred (FreshReady mailboxOf log) :=
  fun _ => inferInstanceAs (Decidable (_ → ∀ agentId ∈ Event.text _ _, ∀ deliveryId ∈ Event.text _ _,
    ∀ eventId ∈ Event.text _ _, _))

/-- The facts that the invariant depends on. -/
def readinessFacts : List String := ["runtime.agent.ready", "runtime.agent.step.completed",
  "runtime.wait.satisfied", "runtime.wait.timed_out", "mailbox.delivery.sent",
  "mailbox.delivery.acked"]

section settled

variable {mailboxOf : String → String} {log : List Event} {e : Event}

theorem completedIds_append (log : List Event) (e : Event) : completedIds (log ++ [e]) =
    completedIds log ++ if e.type = "runtime.agent.step.completed" then
      ((e.get? "ready_id").map Json.pyStr).toList else [] := by
  unfold completedIds
  rw [List.filter_append, List.filterMap_append, List.filter_singleton]
  by_cases htype : e.type = "runtime.agent.step.completed"
  · cases hid : e.get? "ready_id" <;> simp [htype, hid]
  · simp [htype]

/-- A fact that completes no step leaves the ready events, and may be one. -/
theorem pendingReady_append (h : completedIds (log ++ [e]) = completedIds log) :
    pendingReady (log ++ [e]) = pendingReady log ++
      if IsPendingReady (completedIds log) e then [e] else [] := by
  unfold pendingReady
  rw [h, List.filter_append, List.filter_singleton]
  simp [decide_eq_true_eq]

theorem resumed_append (h : ∀ before e after, log = before ++ e :: after → IsResolution e →
      ∃ ready ∈ after, Resumes e ready) (hlast : ¬ IsResolution e) :
    ∀ before f after, log ++ [e] = before ++ f :: after → IsResolution f →
      ∃ ready ∈ after, Resumes f ready := by
  intro before f after heq hf
  rcases List.eq_nil_or_concat after with rfl | ⟨rest, last, rfl⟩
  · obtain ⟨-, hsame⟩ := List.append_inj' heq rfl
    obtain rfl := List.head_eq_of_cons_eq hsame
    exact absurd hf hlast
  · rw [List.concat_eq_append, ← List.cons_append, ← List.append_assoc] at heq
    obtain ⟨hlog, -⟩ := List.append_inj' heq rfl
    obtain ⟨ready, hready, hresumes⟩ := h before f rest hlog hf
    exact ⟨ready, by simp [hready], hresumes⟩

/-- A fact that neither makes ready nor resolves anything, and leaves what is pending. -/
theorem Settled.append (h : Settled mailboxOf log)
    (hready : pendingReady (log ++ [e]) = pendingReady log)
    (hpending : ∀ mailboxId eventId d, pendingFor log mailboxId eventId = some d →
      pendingFor (log ++ [e]) mailboxId eventId = some d) (hlast : ¬ IsResolution e) :
    Settled mailboxOf (log ++ [e]) where
  pending := by
    intro ready hmem
    rw [hready] at hmem
    rcases h.pending ready hmem with hnone | ⟨agentId, d, hagent, hdelivery, hevent, hfirst⟩
    · exact .inl hnone
    · exact .inr ⟨agentId, d, hagent, hdelivery, hevent, hpending _ _ _ hfirst⟩
  apart := by
    rw [hready]
    exact h.apart
  resumed := resumed_append h.resumed hlast

theorem pendingReady_plain (htype : e.type ∉ ["runtime.agent.ready", "runtime.agent.step.completed"] ∨
    e.get? "ready_id" = none) : pendingReady (log ++ [e]) = pendingReady log := by
  have hcompleted : completedIds (log ++ [e]) = completedIds log := by
    rw [completedIds_append]
    rcases htype with hother | hnone
    · rw [if_neg (fun heq => hother (by simp [heq])), List.append_nil]
    · rw [hnone]
      simp
  rw [pendingReady_append hcompleted, if_neg, List.append_nil]
  rintro ⟨hready, -, id, hid, -⟩
  rcases htype with hother | hnone
  · exact hother (by simp [hready])
  · rw [hnone] at hid
    cases hid

/-- Other facts do not matter. -/
theorem Settled.other (h : Settled mailboxOf log) (htype : e.type ∉ readinessFacts) :
    Settled mailboxOf (log ++ [e]) := by
  simp only [readinessFacts, List.mem_cons, List.not_mem_nil, or_false, not_or] at htype
  obtain ⟨hready, hcompleted, hsatisfied, htimedOut, hsent, hacked⟩ := htype
  refine h.append (pendingReady_plain (.inl (by simp [hready, hcompleted]))) ?_ ?_
  · intro mailboxId eventId d hpending
    rwa [pendingFor_other hsent hacked]
  · exact fun hresolution => hresolution.elim hsatisfied htimedOut

/-- Neither do deliveries that are sent. -/
theorem Settled.sent (h : Settled mailboxOf log) (m : String) (d : Delivery) (t : DateTime) :
    Settled mailboxOf (log ++ [sentEvent m d t]) := by
  refine h.append (pendingReady_plain (.inl ?_)) (fun _ _ _ hpending => pendingFor_sent hpending m d t) ?_
  · exact show "mailbox.delivery.sent" ∉ _ by decide
  · exact show ¬ ("mailbox.delivery.sent" = _ ∨ "mailbox.delivery.sent" = _) by decide

/-- Nor ready events and completions that name no step. -/
theorem Settled.unnamed (h : Settled mailboxOf log)
    (htype : e.type = "runtime.agent.ready" ∨ e.type = "runtime.agent.step.completed")
    (hid : e.get? "ready_id" = none) : Settled mailboxOf (log ++ [e]) := by
  have hother : e.type ≠ "mailbox.delivery.sent" ∧ e.type ≠ "mailbox.delivery.acked" ∧
      ¬ IsResolution e := by
    unfold IsResolution
    cases htype with
    | inl heq =>
        rw [heq]
        decide
    | inr heq =>
        rw [heq]
        decide
  refine h.append (pendingReady_plain (.inr hid)) ?_ hother.2.2
  intro mailboxId eventId d hpending
  rwa [pendingFor_other hother.1 hother.2.1]

/-- A ready event of the scheduler. -/
structure QueuedFor (agentId : String) (delivery : Option Delivery) (e : Event) : Prop where
  type : e.type = "runtime.agent.ready"
  agent : e.get? "agent_id" = some (.str agentId)
  readyId : (e.get? "ready_id").isSome
  deliveryId : e.get? "delivery_id" = delivery.map (fun d => .str d.deliveryId)
  eventId : e.get? "event_id" = delivery.map (fun d => .str d.event.id)

/-- A ready event that is fresh keeps what is pending pending, and apart. -/
theorem Settled.queued {agentId : String} {delivery : Option Delivery} {early : List Event}
    (h : Settled mailboxOf early)
    (hready : pendingReady log = pendingReady early)
    (hpending : ∀ mailboxId eventId d, pendingFor early mailboxId eventId = some d →
      pendingFor log mailboxId eventId = some d)
    (he : QueuedFor agentId delivery e) (hfresh : FreshReady mailboxOf log e)
    (hresumed : ∀ before f after, log ++ [e] = before ++ f :: after → IsResolution f →
      ∃ ready ∈ after, Resumes f ready) : Settled mailboxOf (log ++ [e]) := by
  have hsame : ∀ mailboxId eventId, pendingFor (log ++ [e]) mailboxId eventId =
      pendingFor log mailboxId eventId := by
    intro mailboxId eventId
    refine pendingFor_other ?_ ?_
    · rw [he.type]
      decide
    · rw [he.type]
      decide
  have hall : ∀ ready ∈ pendingReady (log ++ [e]), ready ∈ pendingReady early ∨ ready = e := by
    intro ready hmem
    have hcompleted : completedIds (log ++ [e]) = completedIds log := by
      rw [completedIds_append, if_neg, List.append_nil]
      rw [he.type]
      decide
    rw [pendingReady_append hcompleted, hready] at hmem
    rcases List.mem_append.mp hmem with hold | hnew
    · exact .inl hold
    · split at hnew
      · exact .inr (List.mem_singleton.mp hnew)
      · cases hnew
  have hnew : ∀ mailboxId deliveryId, ReadyFor mailboxOf mailboxId deliveryId e →
      ∀ ready ∈ pendingReady early, ¬ ReadyFor mailboxOf mailboxId deliveryId ready := by
    rintro mailboxId deliveryId ⟨agent, hagent, rfl, hdelivery⟩ ready hmem hother
    cases delivery with
    | none =>
        rw [Event.text, he.deliveryId] at hdelivery
        cases hdelivery
    | some d =>
        rw [← hready] at hmem
        refine (hfresh he.type agent hagent deliveryId hdelivery d.event.id ?_).1 ready hmem hother
        rw [Event.text, he.eventId]
        rfl
  constructor
  · intro ready hmem
    rcases hall ready hmem with hold | rfl
    · rcases h.pending ready hold with hnone | ⟨agent, d, hagent, hdelivery, hevent, hfirst⟩
      · exact .inl hnone
      · refine .inr ⟨agent, d, hagent, hdelivery, hevent, ?_⟩
        rw [hsame]
        exact hpending _ _ _ hfirst
    · cases delivery with
      | none =>
          refine .inl ?_
          rw [Event.value, he.eventId]
          rfl
      | some d =>
          have hfirst := (hfresh he.type agentId (by rw [Event.text, he.agent]; rfl) d.deliveryId
            (by rw [Event.text, he.deliveryId]; rfl) d.event.id (by rw [Event.text, he.eventId]; rfl)).2
          obtain ⟨d', hd', hid⟩ := Option.map_eq_some_iff.mp hfirst
          have hevent := pendingFor_event hd'
          refine .inr ⟨agentId, d', he.agent, ?_, ?_, ?_⟩
          · rw [he.deliveryId, hid]
            rfl
          · rw [he.eventId, hevent]
            rfl
          · rw [hsame, hevent]
            exact hd'
  · intro ready hmem other hother mailboxId deliveryId hnames hnames'
    rcases hall ready hmem with hold | rfl
    · rcases hall other hother with hold' | rfl
      · exact h.apart ready hold other hold' mailboxId deliveryId hnames hnames'
      · exact absurd hnames (hnew mailboxId deliveryId hnames' ready hold)
    · rcases hall other hother with hold' | rfl
      · exact absurd hnames' (hnew mailboxId deliveryId hnames other hold')
      · rfl
  · exact hresumed

/-- A step that is completed, after the ack of the delivery that its ready event names. -/
theorem Settled.completed {early : List Event} {ready : Event} (h : Settled mailboxOf early)
    (hready : ready ∈ pendingReady early)
    (hlog : log = early ∨ ∃ mailboxId d t, log = early ++ [ackEvent mailboxId d t] ∧
      ReadyFor mailboxOf mailboxId d.deliveryId ready)
    (htype : e.type = "runtime.agent.step.completed") (hid : e.get? "ready_id" = ready.get? "ready_id") :
    Settled mailboxOf (log ++ [e]) := by
  have hother : e.type ≠ "mailbox.delivery.sent" ∧ e.type ≠ "mailbox.delivery.acked" := by
    rw [htype]
    decide
  have hplain : completedIds log = completedIds early ∧ ∀ r ∈ log, r.type = "runtime.agent.ready" →
      r ∈ early := by
    rcases hlog with rfl | ⟨mailboxId, d, t, rfl, -⟩
    · exact ⟨rfl, fun r hr _ => hr⟩
    · constructor
      · rw [completedIds_append, if_neg, List.append_nil]
        exact show ¬ "mailbox.delivery.acked" = _ by decide
      · intro r hr htype
        rcases List.mem_append.mp hr with hold | hnew
        · exact hold
        · obtain rfl := List.mem_singleton.mp hnew
          exact absurd htype (show ¬ "mailbox.delivery.acked" = _ by decide)
  have hrest : ∀ r ∈ pendingReady (log ++ [e]), r ∈ pendingReady early ∧ r ≠ ready := by
    intro r hr
    obtain ⟨hmem, hpending⟩ := List.mem_filter.mp hr
    obtain ⟨hisReady, hagent, id, hrid, hopen⟩ := of_decide_eq_true hpending
    rw [completedIds_append, if_pos htype, hid, hplain.1, List.mem_append, not_or] at hopen
    constructor
    · refine List.mem_filter.mpr ⟨?_, decide_eq_true ⟨hisReady, hagent, id, hrid, hopen.1⟩⟩
      rcases List.mem_append.mp hmem with hold | hnew
      · exact hplain.2 r hold hisReady
      · obtain rfl := List.mem_singleton.mp hnew
        rw [htype] at hisReady
        exact absurd hisReady (by decide)
    · rintro rfl
      exact hopen.2 (Option.mem_toList.mpr hrid)
  constructor
  · intro r hr
    obtain ⟨hold, hne⟩ := hrest r hr
    rcases h.pending r hold with hnone | ⟨agentId, d, hagent, hdelivery, hevent, hfirst⟩
    · exact .inl hnone
    · refine .inr ⟨agentId, d, hagent, hdelivery, hevent, ?_⟩
      rw [pendingFor_other hother.1 hother.2]
      rcases hlog with rfl | ⟨mailboxId, d', t, rfl, hnames⟩
      · exact hfirst
      · refine pendingFor_acked hfirst ?_
        -- Another ready event would name the same delivery.
        rintro rfl hsame
        refine hne (h.apart r hold ready hready _ _ ?_ hnames)
        refine ⟨agentId, by rw [Event.text, hagent]; rfl, rfl, ?_⟩
        rw [Event.text, hdelivery, hsame]
        rfl
  · intro r hr s hs mailboxId deliveryId hnames hnames'
    exact h.apart r (hrest r hr).1 s (hrest s hs).1 mailboxId deliveryId hnames hnames'
  · have hlast : ¬ IsResolution e := by
      rintro (hsatisfied | htimedOut)
      · rw [htype] at hsatisfied
        exact absurd hsatisfied (by decide)
      · rw [htype] at htimedOut
        exact absurd htimedOut (by decide)
    refine resumed_append ?_ hlast
    rcases hlog with rfl | ⟨mailboxId, d, t, rfl, -⟩
    · exact h.resumed
    · exact resumed_append h.resumed
        (show ¬ ("mailbox.delivery.acked" = _ ∨ "mailbox.delivery.acked" = _) by decide)

end settled

end CrazyHarness
