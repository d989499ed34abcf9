import CrazyHarness.Runtime.Outbox
import CrazyHarness.Runtime.Readiness
import CrazyHarness.Runtime.Scheduler
import CrazyHarness.Store.Agents

/-! # The counter of a mailbox

The row of an agent counts its pending deliveries by one up and one down (`mailbox_pending`), while
`pending` reads them back from the log.  Deliveries are sent and acked by any number of threads, an
ack also as the final fact of a dispatch.

* `Posted`: the facts of the mailboxes are made by `DurableMailbox`, each ack after what it acks.
* `pendingIn_sent_length`, `pendingIn_acked_length`: a new fact adds or takes one pending delivery.
* `counts_of_reachable`: the counter of every agent that was registered in time is exact. -/

namespace CrazyHarness

open Lib Program RuntimeM

/-! ### The facts of mailboxes -/

/-- The types of the facts of a mailbox. -/
def mailboxTypes : List String := ["mailbox.delivery.sent", "mailbox.delivery.acked"]

/-- An event that `DurableMailbox` may append to the log, or one that is no fact of a mailbox. -/
def Postable (log : List Event) (e : Event) : Prop :=
  (e.type = "mailbox.delivery.sent" → ∃ m d t, e = sentEvent m d t) ∧
    (e.type = "mailbox.delivery.acked" → ∃ m d t, e = ackEvent m d t ∧ ∃ t', sentEvent m d t' ∈ log)

/-- Every event of the log could be appended when it was. -/
def Posted (log : List Event) : Prop :=
  ∀ before e after, log = before ++ e :: after → Postable before e

theorem Postable.mono {log log' : List Event} {e : Event} (h : Postable log e) (hsub : log ⊆ log') :
    Postable log' e := by
  refine ⟨h.1, fun htype => ?_⟩
  obtain ⟨m, d, t, he, t', ht'⟩ := h.2 htype
  exact ⟨m, d, t, he, t', hsub ht'⟩

theorem postable_other {log : List Event} {e : Event} (h : e.type ∉ mailboxTypes) : Postable log e := by
  simp only [mailboxTypes, List.mem_cons, List.not_mem_nil, or_false, not_or] at h
  exact ⟨fun htype => absurd htype h.1, fun htype => absurd htype h.2⟩

theorem postable_sent (log : List Event) (m : String) (d : Delivery) (t : DateTime) :
    Postable log (sentEvent m d t) :=
  ⟨fun _ => ⟨m, d, t, rfl⟩, fun htype => absurd htype (show ¬ "mailbox.delivery.sent" = _ by decide)⟩

theorem postable_acked {log : List Event} {m : String} {d : Delivery} {t' : DateTime}
    (h : sentEvent m d t' ∈ log) (t : DateTime) : Postable log (ackEvent m d t) :=
  ⟨fun htype => absurd htype (show ¬ "mailbox.delivery.acked" = _ by decide),
    fun _ => ⟨m, d, t, rfl, t', h⟩⟩

theorem Posted.append {log : List Event} {e : Event} (h : Posted log) (he : Postable log e) :
    Posted (log ++ [e]) := by
  intro before f after hsplit
  rcases List.eq_nil_or_concat after with rfl | ⟨after', last, rfl⟩
  · obtain ⟨rfl, hf⟩ := List.append_inj' hsplit rfl
    rw [← List.head_eq_of_cons_eq hf]
    exact he
  · have hsplit' : log ++ [e] = (before ++ f :: after') ++ [last] := by
      rw [hsplit]
      simp
    obtain ⟨rfl, -⟩ := List.append_inj' hsplit' rfl
    exact h before f after' rfl

theorem Posted.sent {log : List Event} (h : Posted log) {f : Event} (hf : f ∈ log)
    (htype : f.type = "mailbox.delivery.sent") : ∃ m d t, f = sentEvent m d t := by
  obtain ⟨before, after, hsplit⟩ := List.append_of_mem hf
  exact (h before f after hsplit).1 htype

theorem Posted.acked {log : List Event} (h : Posted log) {f : Event} (hf : f ∈ log)
    (htype : f.type = "mailbox.delivery.acked") :
    ∃ m d t, f = ackEvent m d t ∧ ∃ t', sentEvent m d t' ∈ log := by
  obtain ⟨before, after, hsplit⟩ := List.append_of_mem hf
  obtain ⟨m, d, t, he, t', ht'⟩ := (h before f after hsplit).2 htype
  refine ⟨m, d, t, he, t', ?_⟩
  rw [hsplit]
  exact List.mem_append_left _ ht'

section facts

variable {log : List Event} {m mailboxId id : String} {d : Delivery} {t : DateTime}

theorem mem_sentFacts (h : Posted log) {f : Event}
    (hf : f ∈ mailboxFacts log "mailbox.delivery.sent" mailboxId) :
    ∃ d t, f = sentEvent mailboxId d t ∧ f ∈ log := by
  obtain ⟨hmem, hp⟩ := List.mem_filter.mp hf
  simp only [decide_eq_true_eq] at hp
  obtain ⟨m, d, t, rfl⟩ := h.sent hmem hp.1
  have hm : m = mailboxId := by simpa [Event.get?, sentEvent, Dict.get?_cons] using hp.2
  subst hm
  exact ⟨d, t, rfl, hmem⟩

theorem mem_ackedFacts (h : Posted log) {f : Event}
    (hf : f ∈ mailboxFacts log "mailbox.delivery.acked" mailboxId) :
    ∃ d t, f = ackEvent mailboxId d t ∧ f ∈ log ∧ ∃ t', sentEvent mailboxId d t' ∈ log := by
  obtain ⟨hmem, hp⟩ := List.mem_filter.mp hf
  simp only [decide_eq_true_eq] at hp
  obtain ⟨m, d, t, rfl, t', ht'⟩ := h.acked hmem hp.1
  have hm : m = mailboxId := by simpa [Event.get?, ackEvent, Dict.get?_cons] using hp.2
  subst hm
  exact ⟨d, t, rfl, hmem, t', ht'⟩

/-- The identifier of a sent fact is made of its mailbox and the name of the delivery. -/
theorem sentEvent_id_eq {d d' : Delivery} {t t' : DateTime} (h : d.deliveryId = d'.deliveryId) :
    (sentEvent m d t).id = (sentEvent m d' t').id := by
  simp [sentEvent, h]

theorem ackEvent_id_eq {d d' : Delivery} {t t' : DateTime} (h : d.deliveryId = d'.deliveryId) :
    (ackEvent m d t).id = (ackEvent m d' t').id := by
  simp [ackEvent, h]

/-! ### Pending deliveries -/

/-- A delivery under a new name comes last. -/
theorem pendingOf_new {acked seen : List String} {sent : List Event} {ds : List Delivery}
    (h : pendingOf acked seen sent = .ok ds) {e : Event} {event : Event} (hid : deliveryIdOf e = .ok id)
    (hevent : carriedEvent e = .ok event) (hacked : id ∉ acked) (hseen : id ∉ seen)
    (hnew : ∀ f ∈ sent, deliveryIdOf f ≠ .ok id) :
    pendingOf acked seen (sent ++ [e]) = .ok (ds ++ [⟨id, event⟩]) := by
  induction sent generalizing seen ds with
  | nil =>
      obtain rfl := Except.ok.inj h
      rw [List.nil_append, pendingOf, hid, ok_bind, if_neg (by simp [hacked, hseen]), hevent, ok_bind]
      rfl
  | cons f sent ih =>
      unfold pendingOf at h
      obtain ⟨fid, hfid, h⟩ := bind_ok_iff.mp h
      have hne : id ≠ fid := fun heq => hnew f List.mem_cons_self (heq ▸ hfid)
      have hrest : ∀ g ∈ sent, deliveryIdOf g ≠ .ok id := fun g hg => hnew g (List.mem_cons_of_mem f hg)
      rw [List.cons_append, pendingOf, hfid, ok_bind]
      split at h
      next hskip =>
        rw [if_pos hskip]
        exact ih h hseen hrest
      next hkeep =>
        obtain ⟨fevent, hfevent, h⟩ := bind_ok_iff.mp h
        obtain ⟨rest, hrest', h⟩ := bind_ok_iff.mp h
        obtain rfl := Except.ok.inj h
        have hseen' : id ∉ fid :: seen := by
          rw [List.mem_cons, not_or]
          exact ⟨hne, hseen⟩
        rw [if_neg hkeep, hfevent, ok_bind, ih hrest' hseen' hrest, ok_bind]
        rfl

/-- Every name is listed once. -/
theorem pendingOf_nodup {acked seen : List String} {sent : List Event} {ds : List Delivery}
    (h : pendingOf acked seen sent = .ok ds) : (ds.map Delivery.deliveryId).Nodup := by
  induction sent generalizing seen ds with
  | nil =>
      obtain rfl := Except.ok.inj h
      exact List.nodup_nil
  | cons f sent ih =>
      unfold pendingOf at h
      obtain ⟨fid, hfid, h⟩ := bind_ok_iff.mp h
      split at h
      next => exact ih h
      next =>
        obtain ⟨fevent, -, h⟩ := bind_ok_iff.mp h
        obtain ⟨rest, hrest, h⟩ := bind_ok_iff.mp h
        obtain rfl := Except.ok.inj h
        rw [List.map_cons, List.nodup_cons]
        refine ⟨?_, ih hrest⟩
        intro hmem
        obtain ⟨d, hd, heq⟩ := List.mem_map.mp hmem
        have hunseen := (pendingOf_spec hrest hd).2.1
        rw [heq] at hunseen
        exact hunseen List.mem_cons_self

/-- What was sent and is neither acked nor seen is listed. -/
theorem mem_pendingOf {acked seen : List String} {sent : List Event} {ds : List Delivery}
    (h : pendingOf acked seen sent = .ok ds) {e : Event} (he : e ∈ sent) (hid : deliveryIdOf e = .ok id)
    (hacked : id ∉ acked) (hseen : id ∉ seen) : id ∈ ds.map Delivery.deliveryId := by
  induction sent generalizing seen ds with
  | nil => cases he
  | cons f sent ih =>
      unfold pendingOf at h
      obtain ⟨fid, hfid, h⟩ := bind_ok_iff.mp h
      split at h
      next hskip =>
        rcases List.mem_cons.mp he with rfl | he
        · obtain rfl := Except.ok.inj (hid.symm.trans hfid)
          rcases hskip with hin | hin
          · exact absurd hin hacked
          · exact absurd hin hseen
        · exact ih h he hseen
      next =>
        obtain ⟨fevent, -, h⟩ := bind_ok_iff.mp h
        obtain ⟨rest, hrest, h⟩ := bind_ok_iff.mp h
        obtain rfl := Except.ok.inj h
        rw [List.map_cons, List.mem_cons]
        by_cases heq : id = fid
        · exact .inl heq
        · right
          have hrest' : e ∈ sent := by
            rcases List.mem_cons.mp he with rfl | he
            · exact absurd (Except.ok.inj (hid.symm.trans hfid)) heq
            · exact he
          refine ih hrest hrest' ?_
          rw [List.mem_cons, not_or]
          exact ⟨heq, hseen⟩

/-- A new sent fact adds a pending delivery. -/
theorem pendingIn_sent_length (h : Posted log) {ds : List Delivery}
    (hds : pendingIn mailboxId log = .ok ds) (hnew : ∀ f ∈ log, f.id ≠ (sentEvent mailboxId d t).id) :
    pendingIn mailboxId (log ++ [sentEvent mailboxId d t]) = .ok (ds ++ [d]) := by
  obtain ⟨acked, hacked, hpending⟩ := bind_ok_iff.mp hds
  have hunsent : ∀ f ∈ mailboxFacts log "mailbox.delivery.sent" mailboxId,
      deliveryIdOf f ≠ .ok d.deliveryId := by
    intro f hf hid
    obtain ⟨d', t', rfl, hmem⟩ := mem_sentFacts h hf
    rw [deliveryIdOf_sentEvent] at hid
    exact hnew _ hmem (sentEvent_id_eq (Except.ok.inj hid))
  have hunacked : d.deliveryId ∉ acked := by
    intro hin
    obtain ⟨f, hf, hid⟩ := exists_of_mapM_ok hacked hin
    obtain ⟨d', t', rfl, _, t'', hmem⟩ := mem_ackedFacts h hf
    rw [deliveryIdOf_ackEvent] at hid
    exact hnew _ hmem (sentEvent_id_eq (Except.ok.inj hid))
  have hfact : (sentEvent mailboxId d t).type = "mailbox.delivery.sent" ∧
      (sentEvent mailboxId d t).get? "mailbox_id" = some (.str mailboxId) := ⟨rfl, rfl⟩
  unfold pendingIn
  rw [mailboxFacts_append, if_neg (fun hin => absurd hin.1 (show ¬ "mailbox.delivery.sent" = _ by decide)),
    List.append_nil, hacked, ok_bind, mailboxFacts_append, if_pos hfact]
  exact pendingOf_new hpending (deliveryIdOf_sentEvent _ _ _) (carriedEvent_sentEvent _ _ _) hunacked
    List.not_mem_nil hunsent

/-- A new ack takes one pending delivery. -/
theorem pendingIn_acked_length (h : Posted log) {ds : List Delivery}
    (hds : pendingIn mailboxId log = .ok ds) (hnew : ∀ f ∈ log, f.id ≠ (ackEvent mailboxId d t).id)
    {t' : DateTime} (hsent : sentEvent mailboxId d t' ∈ log) :
    ∃ ds', pendingIn mailboxId (log ++ [ackEvent mailboxId d t]) = .ok ds' ∧
      ds.length = ds'.length + 1 := by
  refine ⟨_, pendingIn_acked hds d t, ?_⟩
  obtain ⟨acked, hacked, hpending⟩ := bind_ok_iff.mp hds
  have hunacked : d.deliveryId ∉ acked := by
    intro hin
    obtain ⟨f, hf, hid⟩ := exists_of_mapM_ok hacked hin
    obtain ⟨d', t'', rfl, hmem, -⟩ := mem_ackedFacts h hf
    rw [deliveryIdOf_ackEvent] at hid
    exact hnew _ hmem (ackEvent_id_eq (Except.ok.inj hid))
  have hfact : sentEvent mailboxId d t' ∈ mailboxFacts log "mailbox.delivery.sent" mailboxId := by
    refine List.mem_filter.mpr ⟨hsent, ?_⟩
    simp [sentEvent, Event.get?]
  have hlisted := mem_pendingOf hpending hfact (deliveryIdOf_sentEvent _ _ _) hunacked List.not_mem_nil
  have hcount : (ds.map Delivery.deliveryId).count d.deliveryId = 1 :=
    List.count_eq_one_of_mem (pendingOf_nodup hpending) hlisted
  rw [List.count, List.countP_map] at hcount
  have hsplit := List.length_eq_countP_add_countP
    (fun x : Delivery => decide (x.deliveryId ≠ d.deliveryId)) (l := ds)
  rw [hsplit, List.countP_eq_length_filter, Nat.add_left_cancel_iff, ← hcount]
  refine List.countP_congr (fun x _ => ?_)
  simp

end facts

/-! ### The invariant -/

/-- The agent was registered before anything was sent to it. -/
def RegisteredInTime (log : List Event) (agentId : String) : Prop :=
  ∃ before e after, log = before ++ e :: after ∧ e.registers = some agentId ∧
    ∀ f ∈ before, f.type = "mailbox.delivery.sent" → f.get? "mailbox_id" ≠ some (.str agentId)

/-- The counter of an agent is the number of its pending deliveries. -/
def ExactCounter (db : Database) (agentId : String) : Prop :=
  ∃ ds, pendingIn agentId db.events.rows = .ok ds ∧
    db.mailboxPending agentId = some (.int ds.length)

/-- The counters of the agents that were registered in time are exact. -/
structure Counts (db : Database) : Prop where
  posted : Posted db.events.rows
  unregistered : ∀ agentId, (∀ e ∈ db.events.rows, e.registers ≠ some agentId) →
    db.loadProjection "agent" agentId = none
  exact : ∀ agentId, agentId ≠ "" → RegisteredInTime db.events.rows agentId → ExactCounter db agentId

section events

variable {db db' : Database} {e : Event} {agentId : String}

theorem inboxOf_sentEvent (m : String) (d : Delivery) (t : DateTime) :
    (sentEvent m d t).inboxOf = if m = "" then none else some m := by
  by_cases hm : m = "" <;> simp [Event.inboxOf, sentEvent, Event.get?, truthyText, Json.truthy, Json.pyStr, hm]

theorem inboxOf_ackEvent (m : String) (d : Delivery) (t : DateTime) :
    (ackEvent m d t).inboxOf = if m = "" then none else some m := by
  by_cases hm : m = "" <;> simp [Event.inboxOf, ackEvent, Event.get?, truthyText, Json.truthy, Json.pyStr, hm]

theorem new_id (h : Database.NewEvent db e db') : ∀ f ∈ db.events.rows, f.id ≠ e.id := by
  intro f hf heq
  have hnone := h.fresh
  rw [← heq, Table.lookup_of_mem hf] at hnone
  cases hnone

/-- A fact of the mailbox of the agent moves both. -/
theorem ExactCounter.moved (hexact : ExactCounter db agentId) (hposted : Posted db.events.rows)
    (h : Database.NewEvent db e db') (he : Postable db.events.rows e) (hinbox : e.inboxOf = some agentId) :
    ExactCounter db' agentId := by
  obtain ⟨ds, hds, hcounter⟩ := hexact
  have hmoved := h.counter_moved hinbox hcounter
  have hnew := new_id h
  have htype : e.type = "mailbox.delivery.sent" ∨ e.type = "mailbox.delivery.acked" := by
    by_contra hnot
    rw [Event.inboxOf, if_neg hnot] at hinbox
    cases hinbox
  rcases htype with htype | htype
  · obtain ⟨m, d, t, rfl⟩ := he.1 htype
    rw [inboxOf_sentEvent] at hinbox
    split at hinbox
    · cases hinbox
    · obtain rfl := Option.some.inj hinbox
      refine ⟨ds ++ [d], ?_, ?_⟩
      · rw [h.rows]
        exact pendingIn_sent_length hposted hds hnew
      · rw [hmoved, Event.inboxDelta, if_pos htype, List.length_append, List.length_singleton]
        congr 2
  · obtain ⟨m, d, t, rfl, t', hsent⟩ := he.2 htype
    rw [inboxOf_ackEvent] at hinbox
    split at hinbox
    · cases hinbox
    · obtain rfl := Option.some.inj hinbox
      obtain ⟨ds', hds', hlength⟩ := pendingIn_acked_length hposted hds hnew hsent
      refine ⟨ds', ?_, ?_⟩
      · rw [h.rows]
        exact hds'
      · rw [hmoved, Event.inboxDelta, if_neg (by rw [htype]; decide), hlength]
        congr 2
        omega

/-- Any other event moves neither. -/
theorem ExactCounter.kept (hexact : ExactCounter db agentId) (h : Database.NewEvent db e db')
    (he : Postable db.events.rows e) (hagent : agentId ≠ "") (hinbox : e.inboxOf ≠ some agentId) :
    ExactCounter db' agentId := by
  obtain ⟨ds, hds, hcounter⟩ := hexact
  have hrow : (db.loadProjection "agent" agentId).isSome := by
    obtain ⟨state, hstate, -⟩ := Option.bind_eq_some_iff.mp hcounter
    rw [hstate]
    rfl
  obtain ⟨hkept, -⟩ := h.counter_kept hinbox hrow
  refine ⟨ds, ?_, hkept.trans hcounter⟩
  rw [h.rows]
  by_cases hsent : e.type = "mailbox.delivery.sent"
  · obtain ⟨m, d, t, rfl⟩ := he.1 hsent
    rw [pendingIn_elsewhere, hds]
    intro heq
    have hm : m = agentId := by simpa [Event.get?, sentEvent, Dict.get?_cons] using heq
    rw [inboxOf_sentEvent, hm, if_neg hagent] at hinbox
    exact hinbox rfl
  · by_cases hacked : e.type = "mailbox.delivery.acked"
    · obtain ⟨m, d, t, rfl, -⟩ := he.2 hacked
      rw [pendingIn_elsewhere, hds]
      intro heq
      have hm : m = agentId := by simpa [Event.get?, ackEvent, Dict.get?_cons] using heq
      rw [inboxOf_ackEvent, hm, if_neg hagent] at hinbox
      exact hinbox rfl
    · rw [pendingIn_other hsent hacked, hds]

/-- Nothing is pending where nothing was sent. -/
theorem pendingIn_unsent {log : List Event} (h : Posted log)
    (hunsent : ∀ f ∈ log, f.type = "mailbox.delivery.sent" → f.get? "mailbox_id" ≠ some (.str agentId)) :
    pendingIn agentId log = .ok [] := by
  have hsent : mailboxFacts log "mailbox.delivery.sent" agentId = [] := by
    refine List.filter_eq_nil_iff.mpr ?_
    intro f hf hp
    simp only [decide_eq_true_eq] at hp
    exact hunsent f hf hp.1 hp.2
  have hacked : mailboxFacts log "mailbox.delivery.acked" agentId = [] := by
    by_contra hne
    obtain ⟨f, hf⟩ := List.exists_mem_of_ne_nil _ hne
    obtain ⟨d, t, -, -, t', hmem⟩ := mem_ackedFacts h hf
    exact hunsent _ hmem rfl rfl
  unfold pendingIn
  rw [hsent, hacked]
  rfl

/-- One more event is the registration, or the agent has been registered in time before it. -/
theorem RegisteredInTime.cases {log : List Event} (h : RegisteredInTime (log ++ [e]) agentId) :
    RegisteredInTime log agentId ∨ (e.registers = some agentId ∧ ∀ f ∈ log,
      f.type = "mailbox.delivery.sent" → f.get? "mailbox_id" ≠ some (.str agentId)) := by
  obtain ⟨before, f, after, hsplit, hreg, hunsent⟩ := h
  rcases List.eq_nil_or_concat after with rfl | ⟨after', last, rfl⟩
  · obtain ⟨rfl, hf⟩ := List.append_inj' hsplit rfl
    rw [← List.head_eq_of_cons_eq hf] at hreg
    exact .inr ⟨hreg, hunsent⟩
  · have hsplit' : log ++ [e] = (before ++ f :: after') ++ [last] := by
      rw [hsplit]
      simp
    obtain ⟨rfl, -⟩ := List.append_inj' hsplit' rfl
    exact .inl ⟨before, f, after', rfl, hreg, hunsent⟩

theorem Counts.newEvent (hinv : Counts db) (h : Database.NewEvent db e db')
    (he : Postable db.events.rows e) : Counts db' where
  posted := by
    rw [h.rows]
    exact hinv.posted.append he
  unregistered agentId hnone := by
    rw [h.rows] at hnone
    refine h.unregistered (hnone e (by simp)) (hinv.unregistered agentId ?_)
    intro f hf
    exact hnone f (List.mem_append_left _ hf)
  exact agentId hagent hreg := by
    rw [h.rows] at hreg
    have hearlier : RegisteredInTime db.events.rows agentId → ExactCounter db' agentId := by
      intro hbefore
      have hexact := hinv.exact agentId hagent hbefore
      by_cases hinbox : e.inboxOf = some agentId
      · exact hexact.moved hinv.posted h he hinbox
      · exact hexact.kept h he hagent hinbox
    rcases hreg.cases with hbefore | ⟨hfirst, hunsent⟩
    · exact hearlier hbefore
    · by_cases hagain : ∃ f ∈ db.events.rows, f.registers = some agentId
      · -- It was registered before, and nothing has been sent to it since.
        obtain ⟨f, hf, hfreg⟩ := hagain
        obtain ⟨before, after, hsplit⟩ := List.append_of_mem hf
        refine hearlier ⟨before, f, after, hsplit, hfreg, ?_⟩
        intro g hg
        refine hunsent g ?_
        rw [hsplit]
        exact List.mem_append_left _ hg
      · push Not at hagain
        refine ⟨[], ?_, h.counter_registered hfirst (hinv.unregistered agentId hagain)⟩
        have hother : e.type ∉ mailboxTypes := by
          intro hmem
          rw [Event.registers, if_neg] at hfirst
          · cases hfirst
          · intro htype
            rw [htype] at hmem
            exact absurd hmem (by decide)
        simp only [mailboxTypes, List.mem_cons, List.not_mem_nil, or_false, not_or] at hother
        rw [h.rows, pendingIn_other hother.1 hother.2]
        exact pendingIn_unsent hinv.posted hunsent

theorem Counts.sameLog (hinv : Counts db) (h : Database.SameLog db db') : Counts db' where
  posted := by
    rw [h.events]
    exact hinv.posted
  unregistered agentId hnone := by
    rw [h.loadProjection]
    rw [h.events] at hnone
    exact hinv.unregistered agentId hnone
  exact agentId hagent hreg := by
    rw [h.events] at hreg
    obtain ⟨ds, hds, hcounter⟩ := hinv.exact agentId hagent hreg
    refine ⟨ds, ?_, ?_⟩
    · rw [h.events]
      exact hds
    · rw [Database.mailboxPending, h.loadProjection]
      exact hcounter

theorem Counts.wrote {es : List Event} (hinv : Counts db) (h : db.Wrote es db')
    (hes : ∀ e ∈ es, Postable db.events.rows e) : Counts db' := by
  suffices hboth : Counts db' ∧ db.events.rows ⊆ db'.events.rows from hboth.1
  refine @Database.Wrote.preserves db db' es
    (fun db₁ => Counts db₁ ∧ db.events.rows ⊆ db₁.events.rows) h ?_ ?_ ⟨hinv, List.Subset.refl _⟩
  · rintro db₁ db₂ hs ⟨hcounts, hsub⟩
    refine ⟨hcounts.sameLog hs, ?_⟩
    rw [hs.events]
    exact hsub
  · rintro db₁ f db₂ hnew hf ⟨hcounts, hsub⟩
    refine ⟨hcounts.newEvent hnew ((hes f hf).mono hsub), ?_⟩
    rw [hnew.rows]
    exact List.subset_append_of_subset_left _ hsub

end events

/-! ### The threads -/

/-- Threads that send deliveries, ack them, or end a dispatch with its ack. -/
inductive MailboxStarts : ResidentWorld → Program (withStore residentInterface) Unit → ResidentWorld → Prop
  | send {w : ResidentWorld} (dispatch : Option DispatchContext) (mailboxId : String) (event : Event)
      (deliveryId : String) :
      MailboxStarts w (thread (DurableMailbox.send dispatch mailboxId event deliveryId)) w
  | ack {w : ResidentWorld} (dispatch : Option DispatchContext) (mailboxId deliveryId : String) :
      MailboxStarts w (thread (DurableMailbox.ack dispatch mailboxId deliveryId)) w
  | finish {w : ResidentWorld} (cfg : SchedulerConfig) (r : Reservation) (allowCancelledRun : Bool) :
      MailboxStarts w (thread (finishClaimsWithAck cfg r allowCancelledRun)) w

/-- Everything else writes no facts of mailboxes; it may register agents, and again. -/
def mailboxRules : PoolRules (withStore residentInterface) Unit ResidentWorld where
  step := residentStep
  starts := MailboxStarts
  env := Elsewhere (fun e => e.type ∉ mailboxTypes)

/-- Code that keeps the counters exact. -/
abbrev EnsuresCounts {α : Type} (post : α → ResidentWorld → Prop) (p : Resident α)
    (w : ResidentWorld) : Prop :=
  Ensures residentStep (fun w => Counts w.store.db) LogGrows LogGrows post p w

section threads

variable {α : Type} {w w' : ResidentWorld} {mailboxId deliveryId : String}

theorem counts_step (hinv : Counts w.store.db) {op : (withStore residentInterface).Op}
    {r : (withStore residentInterface).Reply op} (hstep : residentStep w op r w')
    (hop : ∀ e ∈ stepEvent op, Postable w.store.db.events.rows e) :
    Counts w'.store.db ∧ LogGrows w w' := by
  obtain ⟨-, es, hes, hwrote⟩ := residentStep_wrote hstep
  refine ⟨hinv.wrote hwrote (fun e he => hop e (Option.mem_toList.mp (hes he))), ?_⟩
  rw [LogGrows, hwrote.rows]
  exact List.prefix_append _ _

/-- What is read from the log. -/
theorem ensures_readLog (f : List Event → Except RuntimeError α) :
    EnsuresCounts (fun a w => f w.store.db.events.rows = .ok a ∧ Posted w.store.db.events.rows)
      (DurableMailbox.ofLog f) w := by
  have hread : EnsuresCounts (fun log w => log = w.store.db.events.rows ∧ Posted w.store.db.events.rows)
      (readAll none) w := by
    refine ensures_lift ?_
    intro w₁ log w₂ _ hinv hstep
    obtain ⟨hinv', hgrows⟩ := counts_step hinv hstep (fun e he => absurd he (Option.not_mem_none e))
    obtain ⟨s, ⟨hlog, rfl⟩, rfl⟩ := hstep
    exact ⟨hinv', hgrows, hlog, hinv'.posted⟩
  refine ensures_bind hread ?_
  rintro log w₁ ⟨rfl, hposted⟩ a ha
  exact ⟨ha, hposted⟩

/-- A fact that can be appended from now on is appended. -/
theorem ensures_post {dispatch : Option DispatchContext} {f : DateTime → Event}
    (h : ∀ t, Postable w.store.db.events.rows (f t)) :
    EnsuresCounts (fun _ _ => True) (append dispatch f) w := by
  have hnow : EnsuresCounts (fun _ w₁ => LogGrows w w₁) now w := by
    refine ensures_lift ?_
    intro w₁ t w₂ hrely hinv hstep
    obtain ⟨hinv', hgrows⟩ := counts_step hinv hstep (fun e he => absurd he (Option.not_mem_none e))
    exact ⟨hinv', hgrows, hrely.trans hgrows⟩
  refine ensures_bind hnow ?_
  intro t w₁ hgrows
  refine ensures_raising ?_
  intro w₂ _ r w₃ hrely hinv hstep
  have hpost : Postable w₂.store.db.events.rows (f t) := (h t).mono (hgrows.trans hrely).subset
  obtain ⟨hinv', hgrows'⟩ := counts_step hinv hstep (fun e he => Option.mem_some.mp he ▸ hpost)
  exact ⟨(), hinv', hgrows', fun _ _ => trivial⟩

theorem ensures_send (dispatch : Option DispatchContext) (mailboxId : String) (event : Event)
    (deliveryId : String) :
    EnsuresCounts (fun _ _ => True) (DurableMailbox.send dispatch mailboxId event deliveryId) w := by
  refine ensures_bind (ensures_readLog _) ?_
  rintro existing w₁ -
  cases existing with
  | some existing =>
      show EnsuresCounts _ (ite _ _ _) w₁
      split
      · exact ensures_pure trivial
      · exact ensures_throw _
  | none =>
      refine ensures_bind (ensures_post (fun t => postable_sent _ _ _ t)) ?_
      intro _ w₂ _
      exact ensures_pure trivial

/-- An ack is made of a delivery that was sent. -/
theorem deliveryIn_sent {log : List Event} {d : Delivery} (h : Posted log)
    (hd : deliveryIn mailboxId deliveryId log = .ok (some d)) : ∃ t, sentEvent mailboxId d t ∈ log := by
  unfold deliveryIn at hd
  split at hd
  next => cases hd
  next f hfind =>
    obtain ⟨event, hevent, hd⟩ := bind_ok_iff.mp hd
    obtain rfl := Option.some.inj (Except.ok.inj hd)
    obtain ⟨d', t, rfl, hmem⟩ := mem_sentFacts h (List.mem_of_find?_eq_some hfind)
    have hid := List.find?_some hfind
    rw [carriedEvent_sentEvent] at hevent
    have hname : d'.deliveryId = deliveryId := by
      simpa [sentEvent, Event.get?, Dict.get?_cons, Json.pyStr] using hid
    obtain rfl := Except.ok.inj hevent
    subst hname
    exact ⟨t, hmem⟩

theorem ensures_ackEventOf (mailboxId deliveryId : String) :
    EnsuresCounts (fun fact w => ∀ t, Postable w.store.db.events.rows (fact t))
      (DurableMailbox.ackEventOf mailboxId deliveryId) w := by
  refine ensures_bind (ensures_readLog _) ?_
  rintro d w₁ ⟨hd, hposted⟩
  cases d with
  | none => exact ensures_throw _
  | some d =>
      obtain ⟨t', hsent⟩ := deliveryIn_sent hposted hd
      exact ensures_pure (fun t => postable_acked hsent t)

theorem ensures_ack (dispatch : Option DispatchContext) (mailboxId deliveryId : String) :
    EnsuresCounts (fun _ _ => True) (DurableMailbox.ack dispatch mailboxId deliveryId) w := by
  refine ensures_bind (ensures_readLog _) ?_
  rintro pending w₁ -
  show EnsuresCounts _ (ite _ _ _) w₁
  split
  · refine ensures_bind (ensures_ackEventOf _ _) ?_
    intro fact w₂ hfact
    refine ensures_bind (ensures_post hfact) ?_
    intro _ w₃ _
    exact ensures_pure trivial
  · exact ensures_pure trivial

theorem ensures_schedulerAppend {dispatch : Option DispatchContext} {identity : Event} {type : String}
    (htype : type ∉ mailboxTypes) (payload : Dict) (key : String) (causationId taskId : Option String) :
    EnsuresCounts (fun _ _ => True)
      (schedulerAppend dispatch identity type payload key causationId taskId) w :=
  ensures_post (fun _ => postable_other htype)

theorem ensures_recordFinish (r : Reservation) (finished : Bool) (state lostReason : String) :
    EnsuresCounts (fun _ _ => True) (recordFinish r finished state lostReason) w := by
  unfold recordFinish
  split
  · exact ensures_bind (ensures_schedulerAppend (by decide) _ _ _ _) (fun _ _ _ => ensures_pure trivial)
  · exact ensures_bind (ensures_schedulerAppend (by decide) _ _ _ _) (fun _ _ _ => ensures_pure trivial)

theorem ensures_finishClaimsWithAck (cfg : SchedulerConfig) (r : Reservation) (allowCancelledRun : Bool) :
    EnsuresCounts (fun _ _ => True) (finishClaimsWithAck cfg r allowCancelledRun) w := by
  refine ensures_bind (ensures_ackEventOf _ _) ?_
  intro fact w₁ hfact
  have hnow : EnsuresCounts (fun _ w₂ => LogGrows w₁ w₂) now w₁ := by
    refine ensures_lift ?_
    intro w₂ t w₃ hrely hinv hstep
    obtain ⟨hinv', hgrows⟩ := counts_step hinv hstep (fun e he => absurd he (Option.not_mem_none e))
    exact ⟨hinv', hgrows, hrely.trans hgrows⟩
  refine ensures_bind hnow ?_
  intro t w₂ hgrows
  have hfinish : EnsuresCounts (fun _ _ => True) (raising (call (.finishWorkClaims r.claims cfg.ownerId
      .completed (some (fact t)) allowCancelledRun)) : Resident Bool) w₂ := by
    refine ensures_raising ?_
    intro w₃ _ reply w₄ hrely hinv hstep
    have hpost : Postable w₃.store.db.events.rows (fact t) := (hfact t).mono (hgrows.trans hrely).subset
    obtain ⟨hinv', hgrows'⟩ := counts_step hinv hstep (fun e he => Option.mem_some.mp he ▸ hpost)
    exact ⟨(), hinv', hgrows', fun _ _ => trivial⟩
  refine ensures_bind hfinish ?_
  intro finished w₃ _
  refine ensures_bind (ensures_recordFinish _ _ _ _) ?_
  intro _ w₄ _
  exact ensures_pure trivial

end threads

theorem mailboxRules_sound : Pool.Sound mailboxRules (fun w (_ : Unit) => Counts w.store.db) LogGrows
    (fun _ _ => True) where
  refl := LogGrows.refl
  trans := LogGrows.trans
  stable := fun _ _ _ _ _ => trivial
  drop := fun _ _ _ h => h
  starts := by
    have hthread : ∀ {α : Type} {p : Resident α} {w : ResidentWorld},
        EnsuresCounts (fun _ _ => True) p w →
        Program.Safe mailboxRules.step (fun w (_ : Unit) => Counts w.store.db) LogGrows LogGrows
          (fun _ _ _ => True) p.thread w () :=
      fun h => safe_thread h (fun _ _ _ _ => trivial)
    rintro w p w' m hinv hstart
    cases hstart with
    | send dispatch mailboxId event deliveryId =>
        exact ⟨.refl _, (), hinv, hthread (ensures_send dispatch mailboxId event deliveryId)⟩
    | ack dispatch mailboxId deliveryId =>
        exact ⟨.refl _, (), hinv, hthread (ensures_ack dispatch mailboxId deliveryId)⟩
    | finish cfg r allowCancelledRun =>
        exact ⟨.refl _, (), hinv, hthread (ensures_finishClaimsWithAck cfg r allowCancelledRun)⟩
  env := by
    rintro w w' m hinv ⟨-, ⟨es, hwrote, hes⟩, -⟩
    refine ⟨hinv.wrote hwrote (fun e he => postable_other (hes e he)), ?_⟩
    rw [LogGrows, hwrote.rows]
    exact List.prefix_append _ _

/-- **The counter of a mailbox is exact**, for every agent with a name that was registered before its
first delivery. -/
theorem counts_of_reachable {P : Pool (withStore residentInterface) Unit ResidentWorld}
    (h : Pool.Reachable mailboxRules emptyWorld P) {agentId : String} (hagent : agentId ≠ "")
    (hreg : RegisteredInTime P.state.store.db.events.rows agentId) :
    ExactCounter P.state.store.db agentId := by
  have hempty : Pool.Ok mailboxRules (fun w (_ : Unit) => Counts w.store.db) LogGrows (fun _ _ => True)
      emptyWorld [] := by
    refine ⟨⟨?_, fun _ _ => rfl, ?_⟩, .nil, fun a ha => absurd ha List.not_mem_nil⟩
    · intro before e after hsplit
      have hnil : before ++ e :: after = [] := hsplit.symm
      simp at hnil
    · rintro agentId - ⟨before, e, after, hsplit, -⟩
      have hnil : before ++ e :: after = [] := hsplit.symm
      simp at hnil
  obtain ⟨owned, hok⟩ := Pool.ok_of_reachable mailboxRules_sound hempty h
  exact hok.invariant.exact agentId hagent hreg

/-! ### An agent without a name -/

/-- The registration of an agent. -/
def agentRegistered (agentId : String) : Event where
  id := uuid5 ("crazy:agent-card:" ++ agentId)
  runId := "control-plane"
  taskId := "control-plane"
  type := "agent.registered"
  source := "runtime.bootstrap"
  payload := [("agent_id", .str agentId), ("max_concurrency", .int 1)]
  causationId := none
  createdAt := twelve

/-- An agent is registered and gets two deliveries, of which it acks one. -/
def registeredInbox (agentId : String) : Pool (withStore residentInterface) Unit ResidentWorld :=
  ⟨{ store := (storeStrategy twelve (.append none (agentRegistered agentId)) ⟨.initial, 0⟩).2 },
    [(DurableMailbox.send none agentId generalistRun "d1").thread,
      (DurableMailbox.send none agentId generalistRun "d2").thread,
      (DurableMailbox.ack none agentId "d1").thread], []⟩

theorem registeredInbox_reachable (agentId : String) :
    Pool.Reachable mailboxRules emptyWorld (registeredInbox agentId) := by
  have hwritten := @residentStep_wrote { store := ⟨.initial, 0⟩ }
    { store := (storeStrategy twelve (.append none (agentRegistered agentId)) ⟨.initial, 0⟩).2 }
    (.inl (.append none (agentRegistered agentId))) _
    ⟨_, storeStrategy_sound rfl (.append none (agentRegistered agentId)) ⟨.initial, 0⟩, rfl⟩
  obtain ⟨hdrawn, es, hes, hwrote⟩ := hwritten
  have hallowed : ∀ e ∈ es, e.type ∉ mailboxTypes := by
    intro e he
    obtain rfl : agentRegistered agentId = e := Option.mem_some.mp (Option.mem_toList.mp (hes he))
    show "agent.registered" ∉ mailboxTypes
    decide
  refine .trans (.single (.env ⟨hdrawn, ⟨es, hwrote, hallowed⟩, rfl⟩)) ?_
  exact ((Relation.ReflTransGen.single (.start (.ack none agentId "d1"))).tail
    (.start (.send none agentId generalistRun "d2"))).tail
    (.start (.send none agentId generalistRun "d1"))

/-- The deliveries are sent, and the first one is acked. -/
def servedInbox (agentId : String) : Pool (withStore residentInterface) Unit ResidentWorld :=
  Pool.follow (R := mailboxRules) (residentStrategy twelve twelve_utc) (registeredInbox agentId)
    (List.replicate 5 0 ++ List.replicate 5 1 ++ List.replicate 6 2)

theorem servedInbox_reachable (agentId : String) :
    Pool.Reachable mailboxRules emptyWorld (servedInbox agentId) :=
  (registeredInbox_reachable agentId).trans (Pool.follow_reachable _ _ _)

theorem servedInbox_registered {agentId : String}
    (h : (servedInbox agentId).state.store.db.events.rows.head? = some (agentRegistered agentId)) :
    RegisteredInTime (servedInbox agentId).state.store.db.events.rows agentId := by
  obtain ⟨after, hrows⟩ := List.head?_eq_some_iff.mp h
  exact ⟨[], agentRegistered agentId, after, hrows, rfl, fun f hf => absurd hf List.not_mem_nil⟩

/-- One delivery is pending. -/
theorem scout_counts : (pendingIn "scout" (servedInbox "scout").state.store.db.events.rows).toOption.map
      List.length = some 1 ∧ ExactCounter (servedInbox "scout").state.store.db "scout" := by
  refine ⟨by decide +kernel, counts_of_reachable (servedInbox_reachable "scout") (by decide) ?_⟩
  exact servedInbox_registered (by decide +kernel)

/-- The facts of the mailbox without a name are not counted. -/
theorem nameless_not_counted : ∃ (P : Pool (withStore residentInterface) Unit ResidentWorld) (agentId : String),
    Pool.Reachable mailboxRules emptyWorld P ∧
      RegisteredInTime P.state.store.db.events.rows agentId ∧ ¬ ExactCounter P.state.store.db agentId := by
  refine ⟨servedInbox "", "", servedInbox_reachable "", servedInbox_registered (by decide +kernel), ?_⟩
  rintro ⟨ds, hds, hcounter⟩
  have hlength : (pendingIn "" (servedInbox "").state.store.db.events.rows).toOption.map List.length =
      some 1 := by
    decide +kernel
  have hzero : (servedInbox "").state.store.db.mailboxPending "" = some (.int 0) := by decide +kernel
  rw [hds] at hlength
  rw [hzero] at hcounter
  have hone : ds.length = 1 := Option.some.inj hlength
  rw [hone] at hcounter
  exact absurd hcounter (by decide)

end CrazyHarness
