import CrazyHarness.Runtime.MailboxCounter
import CrazyHarness.Store.Absorbing

/-! # An exact inbox

One `DurableMailbox` on a log that others write to as well: `send` and `ack` read the whole log and
append one fact, and between the two any other thread may run, another `send` of the same delivery
included.

* `InboxLog`: the facts of the mailbox are made by it, under identifiers that nothing else takes.
* `InboxLog.pendingIn_eq`: what is pending is what was sent and not acked, in the order of the log.
* `inbox_exact`: so it is in every state that threads reach; a send fails only where another event has
  its name, or where it writes for a dispatch that is over. -/

namespace CrazyHarness

open Lib Program RuntimeM

/-! ### The facts of one mailbox -/

/-- The identifier of the fact that a delivery was sent. -/
def sentId (m deliveryId : String) : String := uuid5 ("crazy:mailbox:" ++ m ++ ":sent:" ++ deliveryId)

/-- The identifier of the fact that a delivery was acked. -/
def ackedId (m deliveryId : String) : String := uuid5 ("crazy:mailbox:" ++ m ++ ":acked:" ++ deliveryId)

/-- An event that is nothing of the mailbox: no fact of it, under none of its identifiers. -/
structure NotOfMailbox (m : String) (e : Event) : Prop where
  fact : e.type ∈ mailboxTypes → e.get? "mailbox_id" ≠ some (.str m)
  sent : ∀ deliveryId, e.id ≠ sentId m deliveryId
  acked : ∀ deliveryId, e.id ≠ ackedId m deliveryId

/-- The delivery was sent. -/
def SentIn (m : String) (log : List Event) (d : Delivery) : Prop := ∃ t, sentEvent m d t ∈ log

/-- A delivery of that name was acked. -/
def AckedIn (m : String) (log : List Event) (deliveryId : String) : Prop :=
  ∃ d t, d.deliveryId = deliveryId ∧ ackEvent m d t ∈ log

/-- An event of a log on which the mailbox writes. -/
inductive InboxEvent (m : String) (log : List Event) (e : Event) : Prop
  | foreign (h : NotOfMailbox m e)
  | sent (d : Delivery) (t : DateTime) (h : e = sentEvent m d t)
  | acked (d : Delivery) (t : DateTime) (h : e = ackEvent m d t) (hsent : SentIn m log d)

/-- A log on which the mailbox writes. -/
structure InboxLog (m : String) (log : List Event) : Prop where
  ids : (log.map Event.id).Nodup
  events : ∀ e ∈ log, InboxEvent m log e

theorem SentIn.mono {m : String} {log log' : List Event} {d : Delivery} (h : SentIn m log d)
    (hsub : log ⊆ log') : SentIn m log' d := by
  obtain ⟨t, ht⟩ := h
  exact ⟨t, hsub ht⟩

theorem AckedIn.mono {m deliveryId : String} {log log' : List Event} (h : AckedIn m log deliveryId)
    (hsub : log ⊆ log') : AckedIn m log' deliveryId := by
  obtain ⟨d, t, hd, ht⟩ := h
  exact ⟨d, t, hd, hsub ht⟩

theorem InboxEvent.mono {m : String} {log log' : List Event} {e : Event} (h : InboxEvent m log e)
    (hsub : log ⊆ log') : InboxEvent m log' e := by
  cases h with
  | foreign h => exact .foreign h
  | sent d t h => exact .sent d t h
  | acked d t h hsent => exact .acked d t h (hsent.mono hsub)

section facts

variable {m : String} {log : List Event} {d d' : Delivery} {t t' : DateTime}

@[simp] theorem sentEvent_id : (sentEvent m d t).id = sentId m d.deliveryId := rfl

@[simp] theorem ackEvent_id : (ackEvent m d t).id = ackedId m d.deliveryId := rfl

theorem sentId_inj {a b : String} : sentId m a = sentId m b ↔ a = b := by
  constructor
  · intro h
    have hchars := congrArg String.toList (uuid5_inj.mp h)
    simp only [String.toList_append] at hchars
    exact String.toList_inj.mp (List.append_cancel_left hchars)
  · intro h
    rw [h]

theorem ackedId_inj {a b : String} : ackedId m a = ackedId m b ↔ a = b := by
  constructor
  · intro h
    have hchars := congrArg String.toList (uuid5_inj.mp h)
    simp only [String.toList_append] at hchars
    exact String.toList_inj.mp (List.append_cancel_left hchars)
  · intro h
    rw [h]

/-- The two kinds of facts never share an identifier. -/
theorem sentId_ne_ackedId (a b : String) : sentId m a ≠ ackedId m b := by
  intro h
  have hchars := congrArg String.toList (uuid5_inj.mp h)
  simp only [String.toList_append, List.append_assoc] at hchars
  have hrest := List.append_cancel_left (List.append_cancel_left hchars)
  have hhead := congrArg (List.take 2) hrest
  rw [List.take_append_of_le_length (by decide), List.take_append_of_le_length (by decide)] at hhead
  exact absurd hhead (by decide)

/-- What is under the identifier of a sent fact is one. -/
theorem InboxLog.of_sentId (h : InboxLog m log) {e : Event} (he : e ∈ log) {deliveryId : String}
    (hid : e.id = sentId m deliveryId) : ∃ d t, e = sentEvent m d t ∧ d.deliveryId = deliveryId := by
  cases h.events e he with
  | foreign hforeign => exact absurd hid (hforeign.sent deliveryId)
  | sent d t heq =>
      subst heq
      exact ⟨d, t, rfl, sentId_inj.mp hid⟩
  | acked d t heq _ =>
      subst heq
      exact absurd hid.symm (sentId_ne_ackedId _ _)

theorem InboxLog.of_ackedId (h : InboxLog m log) {e : Event} (he : e ∈ log) {deliveryId : String}
    (hid : e.id = ackedId m deliveryId) : ∃ d t, e = ackEvent m d t ∧ d.deliveryId = deliveryId := by
  cases h.events e he with
  | foreign hforeign => exact absurd hid (hforeign.acked deliveryId)
  | sent d t heq =>
      subst heq
      exact absurd hid (sentId_ne_ackedId _ _)
  | acked d t heq _ =>
      subst heq
      exact ⟨d, t, rfl, ackedId_inj.mp hid⟩

/-- A delivery is sent once, with one event. -/
theorem InboxLog.sent_unique (h : InboxLog m log) (hd : sentEvent m d t ∈ log)
    (hd' : sentEvent m d' t' ∈ log) (hid : d.deliveryId = d'.deliveryId) : d = d' ∧ t = t' := by
  have hsame : (sentEvent m d t).id = (sentEvent m d' t').id := by
    rw [sentEvent_id, sentEvent_id, hid]
  have heq := List.inj_on_of_nodup_map h.ids hd hd' hsame
  have hevent := congrArg carriedEvent heq
  rw [carriedEvent_sentEvent, carriedEvent_sentEvent] at hevent
  refine ⟨?_, congrArg Event.createdAt heq⟩
  cases d
  cases d'
  obtain rfl : _ = _ := hid
  obtain rfl := Except.ok.inj hevent
  rfl

/-- A fact of the mailbox is one that it made. -/
theorem InboxLog.sentFacts (h : InboxLog m log) {e : Event}
    (he : e ∈ mailboxFacts log "mailbox.delivery.sent" m) : e ∈ log ∧ ∃ d t, e = sentEvent m d t := by
  obtain ⟨hmem, hp⟩ := List.mem_filter.mp he
  obtain ⟨htype, hm⟩ := of_decide_eq_true hp
  refine ⟨hmem, ?_⟩
  cases h.events e hmem with
  | foreign hforeign => exact absurd hm (hforeign.fact (by rw [htype]; decide))
  | sent d t heq => exact ⟨d, t, heq⟩
  | acked d t heq _ =>
      subst heq
      exact absurd htype (by simp [ackEvent])

theorem InboxLog.ackedFacts (h : InboxLog m log) {e : Event}
    (he : e ∈ mailboxFacts log "mailbox.delivery.acked" m) : e ∈ log ∧ ∃ d t, e = ackEvent m d t := by
  obtain ⟨hmem, hp⟩ := List.mem_filter.mp he
  obtain ⟨htype, hm⟩ := of_decide_eq_true hp
  refine ⟨hmem, ?_⟩
  cases h.events e hmem with
  | foreign hforeign => exact absurd hm (hforeign.fact (by rw [htype]; decide))
  | sent d t heq =>
      subst heq
      exact absurd htype (by simp [sentEvent])
  | acked d t heq _ => exact ⟨d, t, heq⟩

theorem mem_sentFacts_iff {e : Event} (he : e = sentEvent m d t) :
    e ∈ mailboxFacts log "mailbox.delivery.sent" m ↔ e ∈ log := by
  subst he
  rw [mailboxFacts, List.mem_filter]
  simp [sentEvent, Event.get?]

theorem mem_ackedFacts_iff {e : Event} (he : e = ackEvent m d t) :
    e ∈ mailboxFacts log "mailbox.delivery.acked" m ↔ e ∈ log := by
  subst he
  rw [mailboxFacts, List.mem_filter]
  simp [ackEvent, Event.get?]

/-! ### What is pending -/

/-- The deliveries of some sent facts, in their order. -/
theorem exists_sent_pairs {facts : List Event} (h : ∀ e ∈ facts, ∃ d t, e = sentEvent m d t) :
    ∃ pairs : List (Delivery × DateTime), facts = pairs.map (fun p => sentEvent m p.1 p.2) := by
  induction facts with
  | nil => exact ⟨[], rfl⟩
  | cons e facts ih =>
      obtain ⟨d, t, rfl⟩ := h e List.mem_cons_self
      obtain ⟨pairs, rfl⟩ := ih (fun f hf => h f (List.mem_cons_of_mem _ hf))
      exact ⟨(d, t) :: pairs, rfl⟩

/-- The loop lists what is not acked, where no name comes twice. -/
theorem pendingOf_pairs {acked seen : List String} {pairs : List (Delivery × DateTime)}
    (hnodup : (pairs.map (·.1.deliveryId)).Nodup) (hseen : ∀ p ∈ pairs, p.1.deliveryId ∉ seen) :
    pendingOf acked seen (pairs.map (fun p => sentEvent m p.1 p.2)) =
      .ok ((pairs.filter (fun p => p.1.deliveryId ∉ acked)).map (·.1)) := by
  induction pairs generalizing seen with
  | nil => rfl
  | cons p pairs ih =>
      rw [List.map_cons, List.nodup_cons] at hnodup
      have hp := hseen p List.mem_cons_self
      rw [List.map_cons, pendingOf, deliveryIdOf_sentEvent, ok_bind]
      by_cases hacked : p.1.deliveryId ∈ acked
      · rw [if_pos (.inl hacked), ih hnodup.2 (fun q hq => hseen q (List.mem_cons_of_mem p hq)),
          List.filter_cons_of_neg (by simpa using hacked)]
      · have hrest : ∀ q ∈ pairs, q.1.deliveryId ∉ p.1.deliveryId :: seen := by
          intro q hq hmem
          rcases List.mem_cons.mp hmem with heq | hmem
          · exact hnodup.1 (heq ▸ List.mem_map_of_mem (f := (·.1.deliveryId)) hq)
          · exact hseen q (List.mem_cons_of_mem p hq) hmem
        rw [if_neg (not_or.mpr ⟨hacked, hp⟩), carriedEvent_sentEvent, ok_bind, ih hnodup.2 hrest, ok_bind,
          List.filter_cons_of_pos (by simpa using hacked)]
        rfl

/-- The names of the acked deliveries. -/
theorem InboxLog.ackedIds (h : InboxLog m log) : ∃ acked,
    (mailboxFacts log "mailbox.delivery.acked" m).mapM deliveryIdOf = .ok acked ∧
      ∀ deliveryId, deliveryId ∈ acked ↔ AckedIn m log deliveryId := by
  have hmade : ∀ facts : List Event, (∀ e ∈ facts, ∃ d t, e = ackEvent m d t) → ∃ acked,
      facts.mapM deliveryIdOf = .ok acked ∧
        ∀ deliveryId, deliveryId ∈ acked ↔ ∃ d t, d.deliveryId = deliveryId ∧ ackEvent m d t ∈ facts := by
    intro facts hfacts
    induction facts with
    | nil => exact ⟨[], rfl, fun id => by simp⟩
    | cons e facts ih =>
        obtain ⟨d, t, rfl⟩ := hfacts e List.mem_cons_self
        obtain ⟨acked, hacked, hmem⟩ := ih (fun f hf => hfacts f (List.mem_cons_of_mem _ hf))
        refine ⟨d.deliveryId :: acked, ?_, ?_⟩
        · rw [List.mapM_cons, deliveryIdOf_ackEvent, ok_bind, hacked, ok_bind]
          rfl
        · intro id
          rw [List.mem_cons, hmem id]
          constructor
          · rintro (rfl | ⟨d', t', hd', ht'⟩)
            · exact ⟨d, t, rfl, List.mem_cons_self⟩
            · exact ⟨d', t', hd', List.mem_cons_of_mem _ ht'⟩
          · rintro ⟨d', t', hd', ht'⟩
            rcases List.mem_cons.mp ht' with heq | ht'
            · left
              have hid := congrArg deliveryIdOf heq
              rw [deliveryIdOf_ackEvent, deliveryIdOf_ackEvent] at hid
              rw [← hd', Except.ok.inj hid]
            · exact .inr ⟨d', t', hd', ht'⟩
  obtain ⟨acked, hacked, hmem⟩ := hmade _ (fun e he => (h.ackedFacts he).2)
  refine ⟨acked, hacked, ?_⟩
  intro id
  rw [hmem]
  constructor
  · rintro ⟨d, t, hd, ht⟩
    exact ⟨d, t, hd, (mem_ackedFacts_iff rfl).mp ht⟩
  · rintro ⟨d, t, hd, ht⟩
    exact ⟨d, t, hd, (mem_ackedFacts_iff rfl).mpr ht⟩

/-- What an inbox shows: every delivery that was sent and not acked, once, in the order of the log and
with the event that it was sent with. -/
def ShowsPending (m : String) (log : List Event) (pending : List Delivery) : Prop :=
  (pending.map (·.deliveryId)).Nodup ∧
    (∀ d, d ∈ pending ↔ SentIn m log d ∧ ¬ AckedIn m log d.deliveryId) ∧
    ∃ sends : List (Delivery × DateTime), pending = sends.map (·.1) ∧
      (sends.map (fun s => sentEvent m s.1 s.2)).Sublist log

/-- **The inbox is exact** for every log on which it writes. -/
theorem InboxLog.pendingIn_eq (h : InboxLog m log) :
    ∃ pending, pendingIn m log = .ok pending ∧ ShowsPending m log pending := by
  obtain ⟨acked, hacked, hmem⟩ := h.ackedIds
  obtain ⟨pairs, hpairs⟩ := exists_sent_pairs (fun e he => (h.sentFacts he).2)
  have hsublist : (pairs.map (fun p => sentEvent m p.1 p.2)).Sublist log := hpairs ▸ List.filter_sublist
  have hnodup : (pairs.map (·.1.deliveryId)).Nodup := by
    have hids := h.ids.sublist (hsublist.map Event.id)
    rw [List.map_map] at hids
    exact List.Nodup.of_map (sentId m) (by rw [List.map_map]; exact hids)
  have hkept : (pairs.filter (fun p => p.1.deliveryId ∉ acked)).Sublist pairs := List.filter_sublist
  refine ⟨(pairs.filter (fun p => p.1.deliveryId ∉ acked)).map (·.1), ?_, ?_, ?_, ?_⟩
  · rw [pendingIn, hacked, ok_bind, hpairs]
    exact pendingOf_pairs hnodup (fun _ _ => List.not_mem_nil)
  · rw [List.map_map]
    exact hnodup.sublist (hkept.map _)
  · intro d
    rw [List.mem_map]
    constructor
    · rintro ⟨p, hp, rfl⟩
      obtain ⟨hp, hnot⟩ := List.mem_filter.mp hp
      refine ⟨⟨p.2, hsublist.subset (List.mem_map_of_mem hp)⟩, ?_⟩
      rw [← hmem]
      exact of_decide_eq_true hnot
    · rintro ⟨⟨t, ht⟩, hnot⟩
      have hfact := (mem_sentFacts_iff rfl).mpr ht
      rw [hpairs] at hfact
      obtain ⟨p, hp, heq⟩ := List.mem_map.mp hfact
      have hid : p.1.deliveryId = d.deliveryId := by
        have hboth := congrArg deliveryIdOf heq
        rw [deliveryIdOf_sentEvent, deliveryIdOf_sentEvent] at hboth
        exact Except.ok.inj hboth
      obtain ⟨rfl, -⟩ := h.sent_unique (by rw [heq]; exact ht) ht hid
      refine ⟨p, List.mem_filter.mpr ⟨hp, decide_eq_true ?_⟩, rfl⟩
      rw [hmem]
      exact hnot
  · exact ⟨_, rfl, (hkept.map _).trans hsublist⟩

end facts

/-! ### The store -/

/-- A store on which the mailbox writes; the counters of its projections are numbers. -/
structure Inbox (m : String) (db : Database) : Prop where
  events : ∀ e ∈ db.events.rows, InboxEvent m db.events.rows e
  runs : db.Counted
  agents : ∀ agentId, (db.loadProjection "agent" agentId).isSome →
    ∃ n, db.mailboxPending agentId = some (.int n)

namespace Inbox

variable {m : String} {db db' : Database} {e : Event} {d : Delivery} {t : DateTime}

theorem log (h : Inbox m db) : InboxLog m db.events.rows := ⟨db.events.nodup, h.events⟩

/-- A new event of the mailbox, or one that is nothing of it. -/
theorem newEvent (h : Inbox m db) (he : InboxEvent m db.events.rows e) (hnew : Database.NewEvent db e db') :
    Inbox m db' where
  events := by
    have hsub : db.events.rows ⊆ db'.events.rows := by
      rw [hnew.rows]
      exact List.subset_append_left _ _
    intro f hf
    rw [hnew.rows] at hf
    rcases List.mem_append.mp hf with hf | hf
    · exact (h.events f hf).mono hsub
    · rw [List.mem_singleton.mp hf]
      exact he.mono hsub
  runs := h.runs.newEvent hnew
  agents := by
    intro agentId hrow
    cases hold : db.loadProjection "agent" agentId with
    | none =>
        by_cases hreg : e.registers = some agentId
        · exact ⟨0, hnew.counter_registered hreg hold⟩
        · rw [hnew.unregistered hreg hold] at hrow
          cases hrow
    | some state =>
        have hsome : (db.loadProjection "agent" agentId).isSome := by
          rw [hold]
          rfl
        obtain ⟨n, hn⟩ := h.agents agentId hsome
        by_cases hinbox : e.inboxOf = some agentId
        · exact ⟨_, hnew.counter_moved hinbox hn⟩
        · exact ⟨n, (hnew.counter_kept hinbox hsome).1.trans hn⟩

theorem sameLog (h : Inbox m db) (hs : Database.SameLog db db') : Inbox m db' where
  events := by
    rw [hs.events]
    exact h.events
  runs := by
    intro runId run hrun
    rw [hs.loadProjection] at hrun
    exact h.runs runId run hrun
  agents := by
    intro agentId hrow
    rw [hs.loadProjection] at hrow
    rw [Database.mailboxPending, hs.loadProjection]
    exact h.agents agentId hrow

theorem wrote {es : List Event} (h : Inbox m db) (hw : db.Wrote es db')
    (hes : ∀ e ∈ es, InboxEvent m db.events.rows e) : Inbox m db' := by
  have hboth : Inbox m db' ∧ db.events.rows ⊆ db'.events.rows := by
    refine @Database.Wrote.preserves db db' es
      (fun db₁ => Inbox m db₁ ∧ db.events.rows ⊆ db₁.events.rows) hw ?_ ?_ ?_
    · rintro db₁ db₂ hs ⟨hinbox, hsub⟩
      refine ⟨hinbox.sameLog hs, ?_⟩
      rw [hs.events]
      exact hsub
    · rintro db₁ e db₂ hnew he ⟨hinbox, hsub⟩
      refine ⟨hinbox.newEvent ((hes e he).mono hsub) hnew, ?_⟩
      rw [hnew.rows]
      exact List.subset_append_of_subset_left _ hsub
    · exact ⟨h, List.Subset.refl _⟩
  exact hboth.1

/-- The run of a sent fact counts it. -/
theorem nextRun_sent (hruns : db.Counted) (seq : ℕ) :
    ∃ r, nextRun (sentEvent m d t) seq (db.loadProjection "run" (sentEvent m d t).runId) = .ok r := by
  have hne : (sentEvent m d t).type ≠ "run.created" := by
    show "mailbox.delivery.sent" ≠ "run.created"
    decide
  cases hrun : db.loadProjection "run" (sentEvent m d t).runId with
  | none => exact ⟨none, by simp [nextRun, hne]⟩
  | some run =>
      obtain ⟨n, hn⟩ := hruns _ _ hrun
      have hcount : intOf (run.getD "event_count" (.int 0)) = .ok n := by
        rw [Dict.getD, hn]
        rfl
      simp only [nextRun, if_neg hne, hcount, ok_bind]
      exact ⟨_, rfl⟩

/-- The counter of the agent goes up. -/
theorem projectAgent_sent (hagents : ∀ agentId, (db.loadProjection "agent" agentId).isSome →
    ∃ n, db.mailboxPending agentId = some (.int n)) (seq : ℕ) :
    ∃ db₁, db.projectAgent (sentEvent m d t) seq = .ok db₁ := by
  have hregistered : (sentEvent m d t).type ≠ "agent.registered" := by
    show "mailbox.delivery.sent" ≠ "agent.registered"
    decide
  have hruntime : ¬ startsWith "runtime.agent." (sentEvent m d t).type = true := by
    show ¬ startsWith "runtime.agent." "mailbox.delivery.sent" = true
    decide
  have hsent : (sentEvent m d t).type = "mailbox.delivery.sent" ∨
      (sentEvent m d t).type = "mailbox.delivery.acked" := .inl rfl
  rw [Database.projectAgent, if_neg hregistered, if_neg hruntime, if_pos hsent]
  cases htext : truthyText ((sentEvent m d t).get? "mailbox_id") with
  | none => exact ⟨db, rfl⟩
  | some agentId =>
      have hnext : ∃ r, nextMailbox (sentEvent m d t) (db.loadProjection "agent" agentId) = .ok r := by
        cases hrow : db.loadProjection "agent" agentId with
        | none => exact ⟨none, rfl⟩
        | some state =>
            obtain ⟨n, hn⟩ := hagents agentId (by rw [hrow]; rfl)
            rw [Database.mailboxPending, hrow, Option.bind_some] at hn
            have hcount : intOf (state.getD "mailbox_pending" (.int 0)) = .ok n := by
              rw [Dict.getD, hn]
              rfl
            simp only [nextMailbox, hcount, ok_bind]
            exact ⟨_, rfl⟩
      obtain ⟨r, hr⟩ := hnext
      exact Database.rewriteProjection_of_ok hr

/-- A fact that a delivery was sent can be projected: only its run and its agent have a part in it. -/
theorem projects_sent (hruns : db.Counted) (hagents : ∀ agentId, (db.loadProjection "agent" agentId).isSome →
    ∃ n, db.mailboxPending agentId = some (.int n)) (seq : ℕ) :
    ∃ db₁, db.projectEvent (sentEvent m d t) seq = .ok db₁ := by
  have htype : (sentEvent m d t).type = "mailbox.delivery.sent" := rfl
  obtain ⟨r, hr⟩ := nextRun_sent (m := m) (d := d) (t := t) hruns seq
  obtain ⟨run, hrun⟩ := @Database.rewriteProjection_of_ok db "run" _ seq _ _ hr
  have hload : ∀ agentId, run.loadProjection "agent" agentId = db.loadProjection "agent" agentId :=
    fun agentId => (Database.onlyKind_rewrite hrun).others "agent" agentId (by decide)
  have hrunAgents : ∀ agentId, (run.loadProjection "agent" agentId).isSome →
      ∃ n, run.mailboxPending agentId = some (.int n) := by
    intro agentId
    rw [Database.mailboxPending, hload, ← Database.mailboxPending]
    exact hagents agentId
  obtain ⟨agent, hagent⟩ := projectAgent_sent (m := m) (d := d) (t := t) hrunAgents seq
  have hassignment : agent.projectAssignment (sentEvent m d t) seq = .ok agent := by
    have hnone : truthyText ((sentEvent m d t).get? "assignment_id") = none := by
      simp [sentEvent, Event.get?, Dict.get?_cons, truthyText]
    rw [Database.projectAssignment, if_neg (by rw [htype]; decide), hnone]
    rfl
  have hlease : agent.projectLease (sentEvent m d t) seq = .ok agent := by
    rw [Database.projectLease, htype, if_neg (by decide)]
  have hpayload : ∀ kind types, "mailbox.delivery.sent" ∉ types →
      agent.projectPayload kind types (sentEvent m d t) seq = .ok agent := by
    intro kind types hnot
    simp [Database.projectPayload, htype, hnot]
  have hentity : ∀ kind family idKey next, startsWith family "mailbox.delivery.sent" = false →
      agent.projectEntity kind family idKey next (sentEvent m d t) seq = .ok agent := by
    intro kind family idKey next hnot
    simp [Database.projectEntity, htype, hnot]
  refine ⟨agent, ?_⟩
  rw [Database.projectEvent, hrun, ok_bind, hagent, ok_bind, hassignment, ok_bind, hlease, ok_bind,
    hpayload _ _ (by decide), ok_bind, hpayload _ _ (by decide), ok_bind, hentity _ _ _ _ (by decide),
    ok_bind, hentity _ _ _ _ (by decide), ok_bind, hentity _ _ _ _ (by decide)]

/-- **A send succeeds**, unless its name is taken by another event. -/
theorem append_sent (h : Inbox m db) (now : DateTime)
    (hfree : ∀ d', SentIn m db.events.rows d' → d'.deliveryId = d.deliveryId → d'.event = d.event) :
    ∃ stored db₁, db.append none (sentEvent m d t) now = .ok (stored, db₁) := by
  have hack : db.checkAck (sentEvent m d t) now = .ok () := by
    rw [Database.checkAck, if_neg (by show "mailbox.delivery.sent" ≠ "mailbox.delivery.acked"; decide)]
  have happend : ∃ r db₁, db.appendInTransaction (sentEvent m d t) = .ok (r, db₁) := by
    unfold Database.appendInTransaction
    split
    next hnew =>
      have hloads : ∀ kind entityId, (db.inserted (sentEvent m d t) hnew).loadProjection kind entityId =
          db.loadProjection kind entityId := fun kind entityId => rfl
      obtain ⟨db₁, hproject⟩ := @projects_sent m (db.inserted (sentEvent m d t) hnew) d t h.runs h.agents
        (db.lastSeq + 1)
      exact ⟨_, db₁, by rw [hproject]; rfl⟩
    next existing hexisting =>
      obtain ⟨d', t', rfl, hid⟩ := h.log.of_sentId (Table.mem_of_lookup hexisting)
        (Table.key_of_lookup hexisting)
      have hevent := hfree d' ⟨t', Table.mem_of_lookup hexisting⟩ hid
      obtain rfl : d' = d := by
        cases d
        cases d'
        obtain rfl : _ = _ := hid
        obtain rfl : _ = _ := hevent
        rfl
      rw [if_pos (by rfl)]
      exact ⟨_, _, rfl⟩
  obtain ⟨⟨stored, inserted⟩, db₁, happend⟩ := happend
  refine ⟨stored, db₁, ?_⟩
  rw [Database.append, hack, happend]
  rfl

end Inbox

/-! ### The threads -/

/-- What a call of the mailbox returned or raised.  Of an ack it is kept whether its delivery had been
sent when it began. -/
inductive InboxReport where
  | sent (dispatch : Option DispatchContext) (d : Delivery) (result : Except RuntimeError Delivery)
  | acked (deliveryId : String) (known : Bool) (result : Except RuntimeError Unit)

/-- What the log says of a report.  A send that returned has been sent, with its own event; one that
raised, for no dispatch, found another event under its name; a delivery that was there when its ack
began, and whose ack returned, is acked. -/
def InboxReport.Right (m : String) (log : List Event) : InboxReport → Prop
  | .sent _ d (.ok d') => d' = d ∧ SentIn m log d
  | .sent dispatch d (.error _) =>
      dispatch = none → ∃ d', SentIn m log d' ∧ d'.deliveryId = d.deliveryId ∧ d'.event ≠ d.event
  | .acked deliveryId known (.ok _) => known = true → AckedIn m log deliveryId
  | .acked _ _ (.error _) => True

/-- A thread whose result is reported. -/
def reporting {α : Type} (p : Resident α) (report : Except RuntimeError α → InboxReport) :
    Program (withStore residentInterface) InboxReport :=
  Program.bind p (fun r => .done (report r))

/-- Threads that send deliveries and ack them. -/
inductive InboxStarts (m : String) :
    ResidentWorld → Program (withStore residentInterface) InboxReport → ResidentWorld → Prop
  | send {w : ResidentWorld} (dispatch : Option DispatchContext) (event : Event) (deliveryId : String) :
      InboxStarts m w (reporting (DurableMailbox.send dispatch m event deliveryId)
        (.sent dispatch ⟨deliveryId, event⟩)) w
  | ack {w : ResidentWorld} (dispatch : Option DispatchContext) (deliveryId : String) (known : Bool)
      (h : known = true → ∃ d, d.deliveryId = deliveryId ∧ SentIn m w.store.db.events.rows d) :
      InboxStarts m w (reporting (DurableMailbox.ack dispatch m deliveryId) (.acked deliveryId known)) w

/-- Everything else writes what is nothing of the mailbox. -/
def inboxRules (m : String) : PoolRules (withStore residentInterface) InboxReport ResidentWorld where
  step := residentStep
  starts := InboxStarts m
  env := Elsewhere (NotOfMailbox m)

/-- Nothing has been written yet. -/
def emptyInbox : Pool (withStore residentInterface) InboxReport ResidentWorld :=
  ⟨{ store := ⟨.initial, 0⟩ }, [], []⟩

section threads

variable {m : String} {w w' : ResidentWorld}

theorem InboxReport.Right.mono {report : InboxReport} {log log' : List Event} (h : report.Right m log)
    (hsub : log ⊆ log') : report.Right m log' := by
  cases report with
  | sent dispatch d result =>
      cases result with
      | ok d' => exact ⟨h.1, h.2.mono hsub⟩
      | error e =>
          intro hnone
          obtain ⟨d', hsent, hid, hevent⟩ := h hnone
          exact ⟨d', hsent.mono hsub, hid, hevent⟩
  | acked deliveryId known result =>
      cases result with
      | ok _ => exact fun hknown => (h hknown).mono hsub
      | error e => trivial

/-- A step that appends nothing, or an event of the mailbox. -/
theorem inbox_step (hinv : Inbox m w.store.db) {op : (withStore residentInterface).Op}
    {r : (withStore residentInterface).Reply op} (hstep : residentStep w op r w')
    (hop : ∀ e ∈ stepEvent op, InboxEvent m w.store.db.events.rows e) :
    Inbox m w'.store.db ∧ LogGrows w w' := by
  obtain ⟨-, es, hes, hwrote⟩ := residentStep_wrote hstep
  refine ⟨hinv.wrote hwrote (fun e he => hop e (Option.mem_toList.mp (hes he))), ?_⟩
  rw [LogGrows, hwrote.rows]
  exact List.prefix_append _ _

/-- Code of the mailbox. -/
abbrev KeepsInbox {α : Type} (m : String) (post : Except RuntimeError α → ResidentWorld → Prop)
    (p : Resident α) (w : ResidentWorld) : Prop :=
  Program.Safe residentStep (fun w (_ : Unit) => Inbox m w.store.db) LogGrows LogGrows
    (fun r w _ => post r w) p w ()

theorem keepsInbox_pure {α : Type} {post : Except RuntimeError α → ResidentWorld → Prop} {a : α}
    (h : post (.ok a) w) : KeepsInbox m post (pure a) w := h

theorem keepsInbox_throw {α : Type} {post : Except RuntimeError α → ResidentWorld → Prop} {e : RuntimeError}
    (h : post (.error e) w) : KeepsInbox m post (throw e) w := h

theorem keepsInbox_bind {α β : Type} {mid : α → ResidentWorld → Prop}
    {post : Except RuntimeError β → ResidentWorld → Prop} {p : Resident α} {f : α → Resident β}
    (h : KeepsInbox m (fun r w => (∃ a, r = .ok a ∧ mid a w) ∨ ∃ e, r = .error e ∧ post (.error e) w) p w)
    (hf : ∀ a w, mid a w → KeepsInbox m post (f a) w) : KeepsInbox m post (p >>= f) w := by
  refine Program.safe_bind h ?_
  rintro r w - (⟨a, rfl, ha⟩ | ⟨e, rfl, he⟩)
  · exact hf a w ha
  · exact he

/-- What is read from the log. -/
theorem keepsInbox_readLog {α : Type} (f : List Event → Except RuntimeError α) :
    KeepsInbox m (fun r w' => r = f w'.store.db.events.rows ∧ Inbox m w'.store.db ∧ LogGrows w w')
      (DurableMailbox.ofLog f) w := by
  intro w₁ _ log w₂ hrely hinv hstep
  obtain ⟨hinv', hgrows⟩ := inbox_step hinv hstep (fun e he => absurd he (Option.not_mem_none e))
  obtain ⟨s, ⟨rfl, rfl⟩, rfl⟩ := hstep
  exact ⟨(), hinv', hgrows, rfl, hinv', hrely.trans hgrows⟩

/-- What an append did with an event of the mailbox: the fact is in the log, or it could not be written. -/
theorem keepsInbox_append {dispatch : Option DispatchContext} {f : DateTime → Event}
    (h : ∀ t, InboxEvent m w.store.db.events.rows (f t)) :
    KeepsInbox m (fun r w' => Inbox m w'.store.db ∧ LogGrows w w' ∧ ∃ t,
      ((∃ stored, r = .ok stored) → ∃ e ∈ w'.store.db.events.rows, e.SameFact (f t)) ∧
        ((∃ e, r = .error e) → ∃ now d, DispatchContext.Becomes dispatch d ∧
          ∀ stored db, w'.store.db.append d (f t) now ≠ .ok (stored, db)))
      (append dispatch f) w := by
  refine @RuntimeM.safe_append _ _ _ _ _ _ _ _ _ _ _ _ (fun _ w' _ => LogGrows w w') _ ?_ ?_
  · intro w₁ _ t w₂ hrely hinv hstep
    obtain ⟨hinv', hgrows⟩ := inbox_step hinv hstep (fun e he => absurd he (Option.not_mem_none e))
    exact ⟨(), hinv', hgrows, hrely.trans hgrows⟩
  · intro t w₁ _ w₂ _ r w₃ hgrows hrely hinv hstep
    have hevent : InboxEvent m w₂.store.db.events.rows (f t) := (h t).mono (hgrows.trans hrely).subset
    obtain ⟨hinv', hgrows'⟩ := inbox_step hinv hstep (fun e he => Option.mem_some.mp he ▸ hevent)
    refine ⟨(), hinv', hgrows', hinv', (hgrows.trans hrely).trans hgrows', t, ?_⟩
    obtain ⟨s, ⟨d, now, hbecomes, -, hout⟩, rfl⟩ := hstep
    rcases StoreWorld.returns_cases hout with ⟨err, happend, rfl, rfl⟩ | ⟨stored, db, happend, rfl, rfl⟩
    · refine ⟨?_, ?_⟩
      · rintro ⟨stored, hstored⟩
        cases hstored
      · rintro -
        refine ⟨now, d, hbecomes, ?_⟩
        intro stored db hok
        rw [happend] at hok
        cases hok
    · refine ⟨?_, ?_⟩
      · rintro -
        rcases Database.append_cases happend with ⟨rfl, hlook, hsame⟩ | ⟨rfl, hnew⟩
        · exact ⟨stored, Table.mem_of_lookup hlook, hsame⟩
        · refine ⟨f t, ?_, .refl _⟩
          show f t ∈ db.events.rows
          rw [hnew.rows]
          exact List.mem_append_right _ (List.mem_singleton_self _)
      · rintro ⟨e, he⟩
        cases he

/-- The fact in the log is the delivery that was sent. -/
theorem sent_of_sameFact {log : List Event} (h : InboxLog m log) {d : Delivery} {t : DateTime} {e : Event}
    (he : e ∈ log) (hsame : e.SameFact (sentEvent m d t)) : SentIn m log d := by
  have hid : e.id = sentId m d.deliveryId := congrArg Event.id hsame
  obtain ⟨d', t', rfl, hid'⟩ := h.of_sentId he hid
  have hcarried : carriedEvent (sentEvent m d' t') = carriedEvent (sentEvent m d t) := by
    rw [← show ({ sentEvent m d' t' with createdAt := (sentEvent m d t).createdAt } : Event) =
      sentEvent m d t from hsame]
    rfl
  rw [carriedEvent_sentEvent, carriedEvent_sentEvent] at hcarried
  obtain rfl : d' = d := by
    cases d
    cases d'
    obtain rfl : _ = _ := hid'
    obtain rfl := Except.ok.inj hcarried
    rfl
  exact ⟨t', he⟩

theorem acked_of_sameFact {log : List Event} (h : InboxLog m log) {d : Delivery} {t : DateTime} {e : Event}
    (he : e ∈ log) (hsame : e.SameFact (ackEvent m d t)) : AckedIn m log d.deliveryId := by
  have hid : e.id = ackedId m d.deliveryId := congrArg Event.id hsame
  obtain ⟨d', t', rfl, hid'⟩ := h.of_ackedId he hid
  exact ⟨d', t', hid', he⟩

/-- `_delivery` finds what was sent under the name. -/
theorem deliveryIn_cases {log : List Event} (h : InboxLog m log) (deliveryId : String) :
    (∃ d, SentIn m log d ∧ d.deliveryId = deliveryId ∧ deliveryIn m deliveryId log = .ok (some d)) ∨
      (∀ d, SentIn m log d → d.deliveryId ≠ deliveryId) ∧ deliveryIn m deliveryId log = .ok none := by
  unfold deliveryIn
  split
  next hnone =>
    refine .inr ⟨?_, rfl⟩
    rintro d ⟨t, ht⟩ hid
    have hfound := List.find?_eq_none.mp hnone _ ((mem_sentFacts_iff rfl).mpr ht)
    simp [sentEvent, Event.get?, Dict.get?_cons, Json.pyStr, hid] at hfound
  next e hfound =>
    obtain ⟨hmem, d, t, rfl⟩ := h.sentFacts (List.mem_of_find?_eq_some hfound)
    have hid : d.deliveryId = deliveryId := by
      simpa [sentEvent, Event.get?, Dict.get?_cons, Json.pyStr] using List.find?_some hfound
    refine .inl ⟨d, ⟨t, hmem⟩, hid, ?_⟩
    rw [carriedEvent_sentEvent, ok_bind, ← hid]
    rfl

theorem keepsInbox_send (dispatch : Option DispatchContext) (event : Event) (deliveryId : String) :
    KeepsInbox m (fun r w => (InboxReport.sent dispatch ⟨deliveryId, event⟩ r).Right m
      w.store.db.events.rows) (DurableMailbox.send dispatch m event deliveryId) w := by
  refine @keepsInbox_bind m w _ _ (fun found w => Inbox m w.store.db ∧
    deliveryIn m deliveryId w.store.db.events.rows = .ok found) _ _ _ ?_ ?_
  · refine Program.Safe.weaken (keepsInbox_readLog _) ?_
    rintro r w₁ - ⟨rfl, hinv, -⟩
    rcases deliveryIn_cases hinv.log deliveryId with ⟨d, -, -, hfound⟩ | ⟨-, hfound⟩
    · exact .inl ⟨some d, hfound, hinv, hfound⟩
    · exact .inl ⟨none, hfound, hinv, hfound⟩
  · rintro found w₁ ⟨hinv, hfound⟩
    rcases deliveryIn_cases hinv.log deliveryId with ⟨d, hsent, hid, hfound'⟩ | ⟨-, hfound'⟩
    · obtain rfl := Except.ok.inj (hfound.symm.trans hfound')
      show KeepsInbox m _ (ite _ _ _) w₁
      split
      next heq =>
        refine keepsInbox_pure ⟨?_, ?_⟩
        · cases d
          obtain rfl : _ = _ := hid
          obtain rfl : _ = _ := heq
          rfl
        · obtain rfl : d = ⟨deliveryId, event⟩ := by
            cases d
            obtain rfl : _ = _ := hid
            obtain rfl : _ = _ := heq
            rfl
          exact hsent
      next hne => exact keepsInbox_throw (fun _ => ⟨d, hsent, hid, hne⟩)
    · obtain rfl := Except.ok.inj (hfound.symm.trans hfound')
      refine @keepsInbox_bind m w₁ _ _ (fun _ w => SentIn m w.store.db.events.rows ⟨deliveryId, event⟩) _ _ _ ?_ ?_
      · refine Program.Safe.weaken (keepsInbox_append (fun t => .sent ⟨deliveryId, event⟩ t rfl)) ?_
        rintro r w₂ - ⟨hinv', -, t, hok, herror⟩
        cases r with
        | ok stored =>
            obtain ⟨e, he, hsame⟩ := hok ⟨stored, rfl⟩
            exact .inl ⟨stored, rfl, sent_of_sameFact hinv'.log he hsame⟩
        | error err =>
            refine .inr ⟨err, rfl, ?_⟩
            rintro rfl
            obtain ⟨now, d, hbecomes, hfails⟩ := herror ⟨err, rfl⟩
            have hnone : d = none := by
              cases d with
              | none => rfl
              | some d =>
                  obtain ⟨d₀, hd₀, -⟩ := hbecomes
                  cases hd₀
            subst hnone
            by_contra hnot
            have hfree : ∀ d', SentIn m w₂.store.db.events.rows d' → d'.deliveryId = deliveryId →
                d'.event = event := by
              intro d' hsent hid
              by_contra hne
              exact hnot ⟨d', hsent, hid, hne⟩
            obtain ⟨stored, db, happend⟩ := @Inbox.append_sent m w₂.store.db ⟨deliveryId, event⟩ t hinv' now
              hfree
            exact hfails stored db happend
      · intro _ w₂ hsent
        exact keepsInbox_pure ⟨rfl, hsent⟩

/-- An ack is made of a delivery that was sent. -/
theorem keepsInbox_ackEventOf (deliveryId : String) :
    KeepsInbox m (fun r w' => (∃ fact, r = .ok fact ∧ ∃ d, d.deliveryId = deliveryId ∧
      SentIn m w'.store.db.events.rows d ∧ fact = ackEvent m d) ∨ ∃ e, r = .error e)
      (DurableMailbox.ackEventOf m deliveryId) w := by
  refine @keepsInbox_bind m w _ _ (fun found w => Inbox m w.store.db ∧
    deliveryIn m deliveryId w.store.db.events.rows = .ok found) _ _ _ ?_ ?_
  · refine Program.Safe.weaken (keepsInbox_readLog _) ?_
    rintro r w₁ - ⟨rfl, hinv, -⟩
    rcases deliveryIn_cases hinv.log deliveryId with ⟨d, -, -, hfound⟩ | ⟨-, hfound⟩
    · exact .inl ⟨some d, hfound, hinv, hfound⟩
    · exact .inl ⟨none, hfound, hinv, hfound⟩
  · rintro found w₁ ⟨hinv, hfound⟩
    rcases deliveryIn_cases hinv.log deliveryId with ⟨d, hsent, hid, hfound'⟩ | ⟨-, hfound'⟩
    · obtain rfl := Except.ok.inj (hfound.symm.trans hfound')
      exact keepsInbox_pure (.inl ⟨_, rfl, d, hid, hsent, rfl⟩)
    · obtain rfl := Except.ok.inj (hfound.symm.trans hfound')
      exact keepsInbox_throw (.inr ⟨_, rfl⟩)

theorem keepsInbox_ack (dispatch : Option DispatchContext) (deliveryId : String) (known : Bool)
    (h : known = true → ∃ d, d.deliveryId = deliveryId ∧ SentIn m w.store.db.events.rows d) :
    KeepsInbox m (fun r w => (InboxReport.acked deliveryId known r).Right m w.store.db.events.rows)
      (DurableMailbox.ack dispatch m deliveryId) w := by
  refine @keepsInbox_bind m w _ _ (fun pending w' => Inbox m w'.store.db ∧ LogGrows w w' ∧
    pendingIn m w'.store.db.events.rows = .ok pending) _ _ _ ?_ ?_
  · refine Program.Safe.weaken (keepsInbox_readLog _) ?_
    rintro r w₁ - ⟨rfl, hinv, hgrows⟩
    obtain ⟨pending, hpending, -⟩ := hinv.log.pendingIn_eq
    exact .inl ⟨pending, hpending, hinv, hgrows, hpending⟩
  · rintro pending w₁ ⟨hinv, hgrows, hpending⟩
    obtain ⟨pending', hpending', -, hmem, -⟩ := hinv.log.pendingIn_eq
    obtain rfl := Except.ok.inj (hpending.symm.trans hpending')
    show KeepsInbox m _ (ite _ _ _) w₁
    split
    next =>
      refine @keepsInbox_bind m w₁ _ _ (fun fact w' => ∃ d, d.deliveryId = deliveryId ∧
        SentIn m w'.store.db.events.rows d ∧ fact = ackEvent m d) _ _ _ ?_ ?_
      · exact Program.Safe.weaken (keepsInbox_ackEventOf deliveryId) (fun r _ _ hr => hr.imp_right
          (fun herror => herror.imp (fun _ he => ⟨he, trivial⟩)))
      · rintro fact w₂ ⟨d, hid, hsent, rfl⟩
        refine @keepsInbox_bind m w₂ _ _ (fun _ w' => AckedIn m w'.store.db.events.rows deliveryId) _ _ _ ?_ ?_
        · refine Program.Safe.weaken (keepsInbox_append (fun t => .acked d t rfl hsent)) ?_
          rintro r w₃ - ⟨hinv', -, t, hok, -⟩
          cases r with
          | ok stored =>
              obtain ⟨e, he, hsame⟩ := hok ⟨stored, rfl⟩
              exact .inl ⟨stored, rfl, hid ▸ acked_of_sameFact hinv'.log he hsame⟩
          | error err => exact .inr ⟨err, rfl, trivial⟩
        · intro _ w₃ hacked
          exact keepsInbox_pure (fun _ => hacked)
    next hnot =>
      refine keepsInbox_pure ?_
      intro hknown
      obtain ⟨d, rfl, hsent⟩ := h hknown
      by_contra hunacked
      exact hnot (List.mem_map_of_mem ((hmem d).mpr ⟨hsent.mono hgrows.subset, hunacked⟩))

end threads

/-! ### Every state -/

theorem inboxRules_sound (m : String) : Pool.Sound (inboxRules m)
    (fun w (_ : Unit) => Inbox m w.store.db) LogGrows (fun report w => report.Right m w.store.db.events.rows) where
  refl := LogGrows.refl
  trans := LogGrows.trans
  stable := fun _ _ _ hgrows h => h.mono hgrows.subset
  drop := fun _ _ _ h => h
  starts := by
    rintro w p w' - hinv hstart
    have hreport : ∀ {α : Type} {p : Resident α} {report : Except RuntimeError α → InboxReport},
        KeepsInbox m (fun r w => (report r).Right m w.store.db.events.rows) p w →
        Program.Safe (inboxRules m).step (fun w (_ : Unit) => Inbox m w.store.db) LogGrows LogGrows
          (fun report w _ => report.Right m w.store.db.events.rows) (reporting p report) w () :=
      fun h => Program.safe_bind h (fun _ _ _ hr => hr)
    cases hstart with
    | send dispatch event deliveryId =>
        exact ⟨.refl _, (), hinv, hreport (keepsInbox_send dispatch event deliveryId)⟩
    | ack dispatch deliveryId known h =>
        exact ⟨.refl _, (), hinv, hreport (keepsInbox_ack dispatch deliveryId known h)⟩
  env := by
    rintro w w' - hinv ⟨-, ⟨es, hwrote, hes⟩, -⟩
    refine ⟨hinv.wrote hwrote (fun e he => .foreign (hes e he)), ?_⟩
    rw [LogGrows, hwrote.rows]
    exact List.prefix_append _ _

theorem inbox_initial (m : String) : Inbox m .initial where
  events := fun _ he => absurd he List.not_mem_nil
  runs := Database.counted_initial
  agents := by
    intro agentId hrow
    cases hrow

/-- **An exact inbox**: whatever calls of `send` and `ack` run at once, are cut off or begun anew over one
log, and whatever else is written there, in every state the pending deliveries are those that were sent
and not acked, each once, in the order in which they were first sent and with the event of that send; what
is acked is pending in no later state; and of the calls that have ended each is right: in particular a
`send` returns, unless another event was sent under its name before. -/
theorem inbox_exact {m : String} {P P' : Pool (withStore residentInterface) InboxReport ResidentWorld}
    (hP : Pool.Reachable (inboxRules m) emptyInbox P) (hP' : Pool.Reachable (inboxRules m) P P') :
    (∃ pending, pendingIn m P.state.store.db.events.rows = .ok pending ∧
        ShowsPending m P.state.store.db.events.rows pending) ∧
      (∀ d d', SentIn m P.state.store.db.events.rows d → SentIn m P'.state.store.db.events.rows d' →
        d.deliveryId = d'.deliveryId → d = d') ∧
      (∀ deliveryId, AckedIn m P.state.store.db.events.rows deliveryId →
        ∃ pending, pendingIn m P'.state.store.db.events.rows = .ok pending ∧
          deliveryId ∉ pending.map (·.deliveryId)) ∧
      ∀ report ∈ P.ended, report.Right m P.state.store.db.events.rows := by
  have hempty : Pool.Ok (inboxRules m) (fun w (_ : Unit) => Inbox m w.store.db) LogGrows
      (fun report w => report.Right m w.store.db.events.rows) emptyInbox [] :=
    ⟨inbox_initial m, .nil, fun _ ha => absurd ha List.not_mem_nil⟩
  obtain ⟨owned, hok⟩ := Pool.ok_of_reachable (inboxRules_sound m) hempty hP
  obtain ⟨owned', hok'⟩ := Pool.ok_of_reachable (inboxRules_sound m) hok hP'
  have hgrows : LogGrows P.state P'.state := Pool.grows_of_reachable (inboxRules_sound m) hok hP'
  have hlater : InboxLog m P'.state.store.db.events.rows := hok'.invariant.log
  refine ⟨hok.invariant.log.pendingIn_eq, ?_, ?_, hok.ended⟩
  · intro d d' hd hd' hid
    obtain ⟨t, ht⟩ := hd.mono hgrows.subset
    obtain ⟨t', ht'⟩ := hd'
    exact (hlater.sent_unique ht ht' hid).1
  · intro deliveryId hacked
    obtain ⟨pending, hpending, -, hmem, -⟩ := hlater.pendingIn_eq
    refine ⟨pending, hpending, ?_⟩
    intro hin
    obtain ⟨d, hd, rfl⟩ := List.mem_map.mp hin
    exact ((hmem d).mp hd).2 (hacked.mono hgrows.subset)

/-- Two sends of one delivery that both find nothing and append in turn; the log has one fact then. -/
def racingSends : Pool (withStore residentInterface) InboxReport ResidentWorld :=
  Pool.follow (R := inboxRules "scout") (residentStrategy twelve twelve_utc)
    ⟨{ store := ⟨.initial, 0⟩ },
      [reporting (DurableMailbox.send none "scout" generalistRun "d1") (.sent none ⟨"d1", generalistRun⟩),
        reporting (DurableMailbox.send none "scout" generalistRun "d1") (.sent none ⟨"d1", generalistRun⟩)],
      []⟩
    [0, 1, 0, 1, 0, 1]

theorem racingSends_reachable : Pool.Reachable (inboxRules "scout") emptyInbox racingSends :=
  ((Relation.ReflTransGen.single (.start (.send none generalistRun "d1"))).tail
    (.start (.send none generalistRun "d1"))).trans (Pool.follow_reachable _ _ _)

/-- What the sends report. -/
def sentOnce : InboxReport := .sent none ⟨"d1", generalistRun⟩ (.ok ⟨"d1", generalistRun⟩)

theorem racingSends_results : racingSends.threads.map Program.result = [sentOnce, sentOnce].map some :=
  rfl

/-- Both sends return, the log has one fact, and what is pending and reported is exact. -/
theorem inbox_exact_racing : ∃ P, Pool.Reachable (inboxRules "scout") emptyInbox P ∧
    P.ended = [sentOnce, sentOnce] ∧ P.state.store.db.events.rows.length = 1 ∧
      (∃ pending, pendingIn "scout" P.state.store.db.events.rows = .ok pending ∧
        ShowsPending "scout" P.state.store.db.events.rows pending) ∧
      SentIn "scout" P.state.store.db.events.rows ⟨"d1", generalistRun⟩ := by
  obtain ⟨P, hend, hstate, hended⟩ := @Pool.all_ended _ _ _ (inboxRules "scout") _ _ racingSends_results
  have hreach := racingSends_reachable.trans hend
  obtain ⟨hpending, -, -, hright⟩ := inbox_exact hreach .refl
  have hsent : sentOnce ∈ P.ended := by
    rw [hended]
    exact List.mem_cons_self
  exact ⟨P, hreach, hended, by rw [hstate]; decide +kernel, hpending, (hright _ hsent).2⟩

end CrazyHarness
