import CrazyHarness.Kernel.Completion

/-! # Peer exchanges

A peer request carries a correlation id, and the response names it.  The kernel checks in the
transaction of a commit that the assignment has not asked before, and that a response is the first one
to its correlation id and fits the last request with it.  The id itself the sender may choose, and the
kernel takes it as it comes.

`peer_exchanges_one_to_one` says what holds in every run whose senders choose ids that are not empty
and new in the run. -/

namespace CrazyHarness

open Lib Check

/-! ### Exchanges -/

/-- A response that the kernel has accepted; the bridge copies it to the agent run that has asked. -/
def IsPeerResponse (correlationId : String) (e : Event) : Prop :=
  e.type = "a2a.peer.responded" ∧ e.source ≠ "runtime.a2a.bridge" ∧
    e.text "correlation_id" = some correlationId

instance (correlationId : String) : DecidablePred (IsPeerResponse correlationId) :=
  fun _ => inferInstanceAs (Decidable (_ ∧ _))

/-- The peer requests of a run. -/
def peerRequestsIn (db : Database) (runId : String) : List Event :=
  (db.readRun runId).filter (fun e => e.type = "a2a.peer.requested")

/-- The response goes back the way of the request, for the same assignment. -/
structure Answers (request response : Event) : Prop where
  assignment : response.text "assignment_id" = request.text "assignment_id"
  sender : response.text "sender" = request.text "receiver"
  receiver : response.text "receiver" = request.text "sender"

/-- Requests and responses of a run are one to one: a request has an assignment, a sender and a
correlation id of its own, and a response answers the one request with its id. -/
structure PeerExchanges (runId : String) (db : Database) : Prop where
  requests : ∀ e ∈ peerRequestsIn db runId, ∃ assignmentId sender id,
    IsPeerRequest assignmentId sender e ∧ e.text "correlation_id" = some id ∧ id ≠ ""
  once : ∀ assignmentId sender,
    (db.readRun runId).countP (IsPeerRequest assignmentId sender ·) ≤ 1
  distinct : (peerRequestsIn db runId).Pairwise
    (fun e f => e.text "correlation_id" ≠ f.text "correlation_id")
  answered : ∀ id, (db.readRun runId).countP (IsPeerResponse id ·) ≤ 1
  answers : ∀ e ∈ db.readRun runId, e.type = "a2a.peer.responded" → e.source ≠ "runtime.a2a.bridge" →
    ∃ request ∈ peerRequestsIn db runId,
      e.text "correlation_id" = request.text "correlation_id" ∧ Answers request e

/-- The correlation id of a peer request. -/
def correlationOf (c : CommandCandidate) : Json := c.payload.getD "correlation_id" (.str c.candidateId)

/-- The id is a text that is not empty, and no other request of the run has it. -/
def FreshCorrelation (db : Database) (c : CommandCandidate) : Prop :=
  ∃ id, (correlationOf c).asStr = some id ∧ id ≠ "" ∧
    ∀ e ∈ peerRequestsIn db c.runId, e.text "correlation_id" ≠ some id

section accepted

variable {c : CommandCandidate} {db db' : Database} {es : List Event} {clock : DateTime}

theorem pyStr_of_asStr {v : Json} {s : String} (h : v.asStr = some s) : v.pyStr = s := by
  cases v with
  | str t => exact Option.some.inj h
  | time d => exact Option.some.inj h
  | _ => cases h

theorem nonEmpty_eq_some {v : Json} {s : String} (h : v.nonEmpty = some s) :
    v.asStr = some s ∧ s ≠ "" := by
  unfold Json.nonEmpty at h
  obtain ⟨t, ht, h⟩ := Option.bind_eq_some_iff.mp h
  by_cases hempty : t = ""
  · rw [if_pos hempty] at h
    cases h
  · rw [if_neg hempty] at h
    obtain rfl := Option.some.inj h
    exact ⟨ht, hempty⟩

/-- A field of a text that is not empty. -/
theorem nonEmpty_field {key : String} {s : String} (h : c.payload.field key Json.nonEmpty = some s) :
    (c.payload.get? key).bind Json.asStr = some s ∧ s ≠ "" ∧ (c.payload.getD key .null).pyStr = s := by
  obtain ⟨v, hv, h⟩ := Option.bind_eq_some_iff.mp h
  obtain ⟨hs, hne⟩ := nonEmpty_eq_some h
  refine ⟨?_, hne, ?_⟩
  · rw [hv]
    exact hs
  · rw [Dict.getD, hv]
    exact pyStr_of_asStr hs

/-- The event of a peer request. -/
structure RequestOf (c : CommandCandidate) (e : Event) : Prop where
  asks : IsPeerRequest (assignmentIdText c) c.actorId e
  correlation : e.text "correlation_id" = (correlationOf c).asStr

/-- A peer request that is accepted adds its event at most. -/
theorem Accepted.requestOf (h : Accepted c db es db') (hkind : c.kind = .peerRequest) :
    ∃ f, RequestOf c f ∧ (es.filter (fun e => e.type = "a2a.peer.requested")).Sublist [f] := by
  obtain ⟨clock, hvalid⟩ := h.valid
  obtain ⟨team, hpasses⟩ := validateCandidate_passes hvalid
  have hschema := hpasses.schema
  rw [payloadSchema, hkind] at hschema
  obtain ⟨acceptedAt, ds, formal, hds, hstamped, hsub, -⟩ := h.facts
  unfold drafts at hds
  simp only [hkind] at hds
  obtain ⟨v, receiver, hv, rfl⟩ := (peerRequestDrafts_yields hds).drafts
  cases hstamped with
  | @cons d e₁ _ _ h₁ hrest =>
      cases hrest with
      | @cons d e₂ _ _ h₂ hrest =>
          cases hrest with
          | @cons d e₃ _ _ h₃ hrest =>
              cases hrest
              obtain ⟨t₁, h₁⟩ := h₁
              obtain ⟨t₂, h₂⟩ := h₂
              obtain ⟨t₃, h₃⟩ := h₃
              refine ⟨e₂, ⟨⟨?_, ?_, ?_⟩, ?_⟩, ?_⟩
              · rw [h₂]
                rfl
              · unfold peerRequestPayload at hschema
                obtain ⟨_, _, hschema⟩ := Option.bind_eq_some_iff.mp hschema
                obtain ⟨id, hid, _⟩ := Option.bind_eq_some_iff.mp hschema
                obtain ⟨htext, -, hstr⟩ := nonEmpty_field hid
                rw [assignmentIdText, hstr, h₂]
                simpa [Event.text, Event.get?, Draft.event, kernelEvent, Dict.get?_cons] using htext
              · rw [h₂]
                simp [Event.text, Event.get?, Draft.event, kernelEvent, Json.asStr]
              · rw [h₂]
                simp [Event.text, Event.get?, Draft.event, kernelEvent, Dict.get?_cons, correlationOf]
              · have htype₁ : e₁.type = "a2a.policy.allowed" := by
                  rw [h₁]
                  rfl
                have htype₂ : e₂.type = "a2a.peer.requested" := by
                  rw [h₂]
                  rfl
                have htype₃ : e₃.type = "assignment.waiting" := by
                  rw [h₃]
                  rfl
                have hall := hsub.filter (fun e => e.type = "a2a.peer.requested")
                simpa [htype₁, htype₂, htype₃, acceptedEvent, kernelEvent] using hall

/-- The event of a peer response. -/
structure ResponseOf (c : CommandCandidate) (e : Event) (id : String) : Prop where
  type : e.type = "a2a.peer.responded"
  assignment : e.text "assignment_id" = some (assignmentIdText c)
  sender : e.text "sender" = some c.actorId
  receiver : e.text "receiver" = some (c.payload.getD "receiver" .null).pyStr
  correlation : e.text "correlation_id" = some id

/-- What the check of a response has found: the request that it answers, and no response to it. -/
theorem validatePeerResponseAuthority_passes {u : Unit}
    (h : (validatePeerResponseAuthority c).within db clock = .ok u) {id : String}
    (hid : (c.payload.getD "correlation_id" .null).pyStr = id) :
    (∃ request ∈ peerRequestsIn db c.runId, request.text "correlation_id" = some id ∧
      request.text "assignment_id" = some (assignmentIdText c) ∧
      request.text "receiver" = some c.actorId ∧
      request.text "sender" = some (c.payload.getD "receiver" .null).pyStr) ∧
    ∀ e ∈ db.readRun c.runId, e.type = "a2a.peer.responded" → e.text "correlation_id" ≠ some id := by
  unfold validatePeerResponseAuthority at h
  simp only [bind_passes, readRun_passes, orReject_passes, require_passes, exists_eq_left', hid] at h
  obtain ⟨request, hrequest, -, hassignment, -, hactor, -, htask, -, hreceiver, _, hlease, -, hnone,
    hrun⟩ := h
  have hfound := List.find?_some hrequest
  simp only [decide_eq_true_eq] at hfound
  constructor
  · refine ⟨request, List.mem_filter.mpr ⟨?_, decide_eq_true hfound.1⟩, hfound.2, hassignment, hactor,
      hreceiver⟩
    exact List.mem_reverse.mp (List.mem_of_find?_eq_some hrequest)
  · intro e he htype htext
    have hanswered := List.any_eq_false.mp hnone e he
    simp [htype, htext] at hanswered

/-- A peer response that is accepted adds its event at most, and it is the first one to its id, and
answers a request. -/
theorem Accepted.responseOf (h : Accepted c db es db') (hkind : c.kind = .peerResponse)
    {k : TeamContract} (hk : db.ContractIs c.runId (some k)) :
    ∃ f id, ResponseOf c f id ∧
      (es.filter (fun e => e.type = "a2a.peer.responded")).Sublist [f] ∧
      (∀ e ∈ db.readRun c.runId, e.type = "a2a.peer.responded" →
        e.text "correlation_id" ≠ some id) ∧
      ∃ request ∈ peerRequestsIn db c.runId,
        f.text "correlation_id" = request.text "correlation_id" ∧ Answers request f := by
  obtain ⟨clock, hvalid⟩ := h.valid
  obtain ⟨team, hpasses⟩ := validateCandidate_passes hvalid
  obtain rfl : team = some k := hpasses.contract.unique hk
  have hschema := hpasses.schema
  have hchecks := hpasses.kind
  rw [payloadSchema, hkind] at hschema
  rw [validateKind, hkind] at hchecks
  obtain ⟨acceptedAt, ds, formal, hds, hstamped, hsub, -⟩ := h.facts
  unfold drafts at hds
  simp only [hkind] at hds
  obtain rfl := ReadM.yields_pure.mp hds
  -- The schema makes texts of the fields that the response names.
  unfold peerResponsePayload at hschema
  obtain ⟨_, _, hschema⟩ := Option.bind_eq_some_iff.mp hschema
  obtain ⟨assignmentId, hassignmentId, hschema⟩ := Option.bind_eq_some_iff.mp hschema
  obtain ⟨receiver, hreceiver, hschema⟩ := Option.bind_eq_some_iff.mp hschema
  obtain ⟨_, _, hschema⟩ := Option.bind_eq_some_iff.mp hschema
  obtain ⟨_, _, hschema⟩ := Option.bind_eq_some_iff.mp hschema
  obtain ⟨id, hid, _⟩ := Option.bind_eq_some_iff.mp hschema
  obtain ⟨hassignmentText, -, hassignmentStr⟩ := nonEmpty_field hassignmentId
  obtain ⟨hreceiverText, -, hreceiverStr⟩ := nonEmpty_field hreceiver
  obtain ⟨hidText, -, hidStr⟩ := nonEmpty_field hid
  cases hstamped with
  | @cons d f _ _ hf hrest =>
      cases hrest
      obtain ⟨createdAt, hf⟩ := hf
      have hresponse : ResponseOf c f id := by
        constructor
        · rw [hf]
          rfl
        · rw [assignmentIdText, hassignmentStr, hf]
          simpa [Event.text, Event.get?, Draft.event, kernelEvent, Dict.get?_cons] using hassignmentText
        · rw [hf]
          simp [Event.text, Event.get?, Draft.event, kernelEvent, Json.asStr]
        · rw [hreceiverStr, hf]
          simpa [Event.text, Event.get?, Draft.event, kernelEvent, Dict.get?_cons] using hreceiverText
        · obtain ⟨v, hv, hvtext⟩ := Option.bind_eq_some_iff.mp hidText
          rw [hf]
          simp [Event.text, Event.get?, Draft.event, kernelEvent, Dict.get?_cons, Dict.getD, hv, hvtext]
      obtain ⟨_, hauthority, _⟩ := bind_passes.mp (withContract_passes.mp hchecks k rfl)
      obtain ⟨⟨request, hrequest, hcorrelation, hassignment, hactor, hsender⟩, hnone⟩ :=
        validatePeerResponseAuthority_passes hauthority hidStr
      refine ⟨f, id, hresponse, ?_, hnone, request, hrequest, ?_, ?_, ?_, ?_⟩
      · have hall := hsub.filter (fun e => e.type = "a2a.peer.responded")
        simpa [hresponse.type, acceptedEvent, kernelEvent] using hall
      · rw [hresponse.correlation, hcorrelation]
      · rw [hresponse.assignment, hassignment]
      · rw [hresponse.sender, hactor]
      · rw [hresponse.receiver, hsender]

/-- No other kind of command writes a request or a response. -/
theorem kind_of_peerFact : ∀ kind : CommandKind, ∀ type ∈ "candidate.accepted" :: factTypes kind,
    (type = "a2a.peer.requested" → kind = .peerRequest) ∧
      (type = "a2a.peer.responded" → kind = .peerResponse) := by
  intro kind
  cases kind <;> decide

end accepted

/-! ### The invariant -/

/-- A request that nobody has made, with an id that no other one has. -/
def NewRequest (runId : String) (db : Database) (e : Event) : Prop :=
  ∃ assignmentId sender id, IsPeerRequest assignmentId sender e ∧
    e.text "correlation_id" = some id ∧ id ≠ "" ∧
    (db.readRun runId).countP (IsPeerRequest assignmentId sender ·) = 0 ∧
    ∀ request ∈ peerRequestsIn db runId, request.text "correlation_id" ≠ some id

/-- The first response to an id, which answers the request with it. -/
def NewResponse (runId : String) (db : Database) (e : Event) : Prop :=
  e.type = "a2a.peer.responded" ∧ (∃ id, e.text "correlation_id" = some id ∧
    ∀ response ∈ db.readRun runId, response.type = "a2a.peer.responded" →
      response.text "correlation_id" ≠ some id) ∧
    ∃ request ∈ peerRequestsIn db runId,
      e.text "correlation_id" = request.text "correlation_id" ∧ Answers request e

/-- The list is empty, or has one event, which is as it has to be. -/
def AtMostOne (P : Event → Prop) (events : List Event) : Prop :=
  events = [] ∨ ∃ e, events = [e] ∧ P e

theorem atMostOne_of_sublist {P : Event → Prop} {events : List Event} {e : Event}
    (h : events.Sublist [e]) (he : P e) : AtMostOne P events := by
  cases List.sublist_singleton.mp h with
  | inl hnone => exact .inl hnone
  | inr hone => exact .inr ⟨e, hone, he⟩

section exchanges

variable {runId : String} {db db' : Database} {es : List Event}

theorem readRun_wrote (hw : db.Wrote es db') :
    db'.readRun runId = db.readRun runId ++ es.filter (fun e => e.runId = runId) := by
  unfold Database.readRun
  rw [hw.rows, List.filter_append]

theorem peerRequestsIn_wrote (hw : db.Wrote es db') :
    peerRequestsIn db' runId = peerRequestsIn db runId ++
      (es.filter (fun e => e.runId = runId)).filter (fun e => e.type = "a2a.peer.requested") := by
  unfold peerRequestsIn
  rw [readRun_wrote hw, List.filter_append]

theorem countP_isPeerRequest (log : List Event) (assignmentId sender : String) :
    log.countP (IsPeerRequest assignmentId sender ·) =
      (log.filter (fun e => e.type = "a2a.peer.requested")).countP (IsPeerRequest assignmentId sender ·) := by
  rw [List.countP_filter]
  refine List.countP_congr ?_
  intro e _
  simp only [decide_eq_true_eq, Bool.and_eq_true]
  exact ⟨fun h => ⟨h, h.1⟩, fun h => h.1⟩

/-- The kernel has answered. -/
def IsKernelResponse (e : Event) : Prop :=
  e.type = "a2a.peer.responded" ∧ e.source ≠ "runtime.a2a.bridge"

instance : DecidablePred IsKernelResponse := fun _ => inferInstanceAs (Decidable (_ ∧ _))

theorem countP_isPeerResponse (log : List Event) (id : String) :
    log.countP (IsPeerResponse id ·) =
      (log.filter (fun e => IsKernelResponse e)).countP (IsPeerResponse id ·) := by
  rw [List.countP_filter]
  refine List.countP_congr ?_
  intro e _
  simp only [decide_eq_true_eq, Bool.and_eq_true]
  exact ⟨fun h => ⟨h, h.1, h.2.1⟩, fun h => h.1⟩

/-- Events with one new request at most, and one new response at most, keep the invariant. -/
theorem PeerExchanges.wrote (h : PeerExchanges runId db) (hw : db.Wrote es db')
    (hrequests : AtMostOne (NewRequest runId db)
      ((es.filter (fun e => e.runId = runId)).filter (fun e => e.type = "a2a.peer.requested")))
    (hresponses : AtMostOne (NewResponse runId db)
      ((es.filter (fun e => e.runId = runId)).filter (fun e => IsKernelResponse e))) :
    PeerExchanges runId db' where
  requests := by
    intro e he
    rw [peerRequestsIn_wrote hw] at he
    obtain hnone | ⟨f, hone, hnew⟩ := hrequests
    · rw [hnone, List.append_nil] at he
      exact h.requests e he
    · rw [hone] at he
      cases List.mem_append.mp he with
      | inl hold => exact h.requests e hold
      | inr hlast =>
          obtain rfl := List.mem_singleton.mp hlast
          obtain ⟨assignmentId, sender, id, hasks, hid, hne, -⟩ := hnew
          exact ⟨assignmentId, sender, id, hasks, hid, hne⟩
  once := by
    intro assignmentId sender
    rw [readRun_wrote hw, List.countP_append, countP_isPeerRequest (es.filter _)]
    obtain hnone | ⟨f, hone, hnew⟩ := hrequests
    · rw [hnone]
      exact h.once assignmentId sender
    · rw [hone]
      by_cases hf : IsPeerRequest assignmentId sender f
      · obtain ⟨a, s, id, hasks, -, -, hzero, -⟩ := hnew
        obtain rfl : assignmentId = a := Option.some.inj (hf.2.1.symm.trans hasks.2.1)
        obtain rfl : sender = s := Option.some.inj (hf.2.2.symm.trans hasks.2.2)
        rw [hzero]
        simp [hf]
      · have hold := h.once assignmentId sender
        simpa [hf] using hold
  distinct := by
    rw [peerRequestsIn_wrote hw]
    obtain hnone | ⟨f, hone, hnew⟩ := hrequests
    · rw [hnone, List.append_nil]
      exact h.distinct
    · rw [hone]
      obtain ⟨_, _, id, -, hid, -, -, hfresh⟩ := hnew
      refine List.pairwise_append.mpr ⟨h.distinct, List.pairwise_singleton _ _, ?_⟩
      intro e he g hg
      obtain rfl := List.mem_singleton.mp hg
      rw [hid]
      exact hfresh e he
  answered := by
    intro id
    rw [readRun_wrote hw, List.countP_append, countP_isPeerResponse (es.filter _)]
    obtain hnone | ⟨f, hone, hnew⟩ := hresponses
    · rw [hnone]
      exact h.answered id
    · rw [hone]
      by_cases hf : IsPeerResponse id f
      · obtain ⟨-, ⟨id', hid', hfirst⟩, -⟩ := hnew
        obtain rfl : id = id' := Option.some.inj (hf.2.2.symm.trans hid')
        have hzero : (db.readRun runId).countP (IsPeerResponse id ·) = 0 := by
          refine List.countP_eq_zero.mpr ?_
          intro e he hresponse
          have hanswer : IsPeerResponse id e := of_decide_eq_true hresponse
          exact hfirst e he hanswer.1 hanswer.2.2
        rw [hzero]
        simp [hf]
      · have hold := h.answered id
        simpa [hf] using hold
  answers := by
    intro e he htype hsource
    have hmem : ∀ request ∈ peerRequestsIn db runId, request ∈ peerRequestsIn db' runId := by
      intro request hrequest
      rw [peerRequestsIn_wrote hw]
      exact List.mem_append_left _ hrequest
    rw [readRun_wrote hw] at he
    cases List.mem_append.mp he with
    | inl hold =>
        obtain ⟨request, hrequest, hanswers⟩ := h.answers e hold htype hsource
        exact ⟨request, hmem request hrequest, hanswers⟩
    | inr hlast =>
        have hin : e ∈ (es.filter (fun e => e.runId = runId)).filter (fun e => IsKernelResponse e) :=
          List.mem_filter.mpr ⟨hlast, decide_eq_true ⟨htype, hsource⟩⟩
        obtain hnone | ⟨f, hone, hnew⟩ := hresponses
        · rw [hnone] at hin
          cases hin
        · rw [hone] at hin
          obtain rfl := List.mem_singleton.mp hin
          obtain ⟨-, -, request, hrequest, hanswers⟩ := hnew
          exact ⟨request, hmem request hrequest, hanswers⟩

/-- Events that are no part of an exchange keep the invariant. -/
theorem PeerExchanges.others (h : PeerExchanges runId db) (hw : db.Wrote es db')
    (hes : ∀ e ∈ es, e.runId = runId → e.type ≠ "a2a.peer.requested" ∧ ¬ IsKernelResponse e) :
    PeerExchanges runId db' := by
  refine h.wrote hw (.inl ?_) (.inl ?_)
  · refine List.filter_eq_nil_iff.mpr ?_
    intro e he
    obtain ⟨hmem, hrun⟩ := List.mem_filter.mp he
    simpa using (hes e hmem (of_decide_eq_true hrun)).1
  · refine List.filter_eq_nil_iff.mpr ?_
    intro e he
    obtain ⟨hmem, hrun⟩ := List.mem_filter.mp he
    simpa using (hes e hmem (of_decide_eq_true hrun)).2

/-- An accepted command whose request is fresh keeps the invariant. -/
theorem PeerExchanges.accepted {c : CommandCandidate} {k : TeamContract} (h : PeerExchanges runId db)
    (hk : db.ContractIs runId (some k)) (ha : Accepted c db es db')
    (hfresh : c.kind = .peerRequest → c.runId = runId → FreshCorrelation db c) :
    PeerExchanges runId db' := by
  by_cases hrun : c.runId = runId
  · subst hrun
    have hall : es.filter (fun e => e.runId = c.runId) = es := by
      refine List.filter_eq_self.mpr ?_
      intro e he
      exact decide_eq_true (ha.fact e he).1
    refine h.wrote ha.wrote ?_ ?_
    · rw [hall]
      by_cases hkind : c.kind = .peerRequest
      · obtain ⟨f, hf, hsub⟩ := ha.requestOf hkind
        obtain ⟨id, hid, hne, hnone⟩ := hfresh hkind rfl
        refine atMostOne_of_sublist hsub ⟨_, _, id, hf.asks, ?_, hne, ?_, hnone⟩
        · rw [hf.correlation, hid]
        · obtain ⟨clock, hvalid⟩ := ha.valid
          obtain ⟨team, hpasses⟩ := validateCandidate_passes hvalid
          have hchecks := hpasses.kind
          rw [validateKind, hkind] at hchecks
          exact (validatePeerRequest_passes hchecks).2
      · refine .inl (List.filter_eq_nil_iff.mpr ?_)
        intro e he htype
        exact hkind ((kind_of_peerFact c.kind e.type (ha.fact e he).2).1 (of_decide_eq_true htype))
    · rw [hall]
      by_cases hkind : c.kind = .peerResponse
      · obtain ⟨f, id, hf, hsub, hnone, hanswers⟩ := ha.responseOf hkind hk
        have hkernel : (es.filter (fun e => IsKernelResponse e)).Sublist
            (es.filter (fun e => e.type = "a2a.peer.responded")) := by
          refine List.monotone_filter_right es ?_
          intro e he
          exact decide_eq_true (of_decide_eq_true he).1
        exact atMostOne_of_sublist (hkernel.trans hsub)
          ⟨hf.type, ⟨id, hf.correlation, hnone⟩, hanswers⟩
      · refine .inl (List.filter_eq_nil_iff.mpr ?_)
        intro e he hresponse
        have htype := (of_decide_eq_true hresponse : IsKernelResponse e).1
        exact hkind ((kind_of_peerFact c.kind e.type (ha.fact e he).2).2 htype)
  · refine h.others ha.wrote ?_
    intro e he heq
    exact absurd ((ha.fact e he).1.symm.trans heq) hrun

end exchanges

/-! ### Runs -/

/-- A step of the store: a call of a submission, whose peer request, if it is committed to the run,
has a fresh correlation id; or code that neither asks nor answers in the run, as the bridge, which
copies answers. -/
inductive PeerStep (runId : String) (w w' : StoreWorld) : Prop
  | submission {dispatch : Option DispatchContext} {c : CommandCandidate}
      {op : (withStore kernelInterface).Op} {r : (withStore kernelInterface).Reply op}
      (hop : (submit controlKernel dispatch c).CanRequest anyReply op) (hstep : kernelStep w op r w')
      (hfresh : CommitsAcceptance op → c.kind = .peerRequest → c.runId = runId →
        FreshCorrelation w.db c) : PeerStep runId w w'
  | other {es : List Event} (hw : w.db.Wrote es w'.db)
      (hes : ∀ e ∈ es, e.runId = runId → e.type ≠ "a2a.peer.requested" ∧ ¬ IsKernelResponse e) :
      PeerStep runId w w'

section runs

variable {runId : String} {k : TeamContract} {w w' : StoreWorld}

theorem PeerStep.grown (h : PeerStep runId w w') : w.db.events.rows <+: w'.db.events.rows := by
  cases h with
  | other hw => exact ⟨_, hw.rows.symm⟩
  | @submission dispatch c op r hop hstep =>
      have hcall : KernelCall anyReply controlKernel c op :=
        (calls_submit anyReply controlKernel dispatch c).canRequest hop
      cases hcall.effect hstep with
      | accepted es haccepted => exact ⟨es, haccepted.wrote.rows.symm⟩
      | noted es hwrote => exact ⟨es, hwrote.rows.symm⟩

theorem PeerExchanges.step (h : PeerExchanges runId w.db) (hk : w.db.ContractIs runId (some k))
    (hs : PeerStep runId w w') : PeerExchanges runId w'.db := by
  cases hs with
  | other hw hes => exact h.others hw hes
  | @submission dispatch c op r hop hstep hfresh =>
      have hcall : KernelCall anyReply controlKernel c op :=
        (calls_submit anyReply controlKernel dispatch c).canRequest hop
      cases hcall.effect hstep with
      | accepted es haccepted hcommits => exact h.accepted hk haccepted.accepted (hfresh hcommits)
      | noted es hwrote hnotes =>
          have htypes : ∀ type ∈ candidateNotes,
              type ≠ "a2a.peer.requested" ∧ type ≠ "a2a.peer.responded" := by
            decide
          refine h.others hwrote ?_
          intro e he _
          obtain ⟨hrequested, hresponded⟩ := htypes e.type (hnotes e he).2.2
          exact ⟨hrequested, fun hresponse => hresponded hresponse.1⟩

/-- **Peer exchanges are one to one** in every run with a contract whose senders choose correlation
ids that are new in the run, and not empty. -/
theorem peer_exchanges_one_to_one (hcontract : w.db.ContractIs runId (some k))
    (hnone : ∀ e ∈ w.db.readRun runId, e.type ≠ "a2a.peer.requested" ∧ ¬ IsKernelResponse e)
    (hrun : Relation.ReflTransGen (PeerStep runId) w w') : PeerExchanges runId w'.db := by
  suffices h : w'.db.ContractIs runId (some k) ∧ PeerExchanges runId w'.db from h.2
  induction hrun with
  | refl =>
      have hrequests : peerRequestsIn w.db runId = [] := by
        refine List.filter_eq_nil_iff.mpr ?_
        intro e he
        simpa using (hnone e he).1
      refine ⟨hcontract, ?_, ?_, ?_, ?_, ?_⟩
      · intro e he
        rw [hrequests] at he
        cases he
      · intro assignmentId sender
        have hzero := countP_isPeerRequest (w.db.readRun runId) assignmentId sender
        rw [show (w.db.readRun runId).filter (fun e => e.type = "a2a.peer.requested") = [] from
          hrequests, List.countP_nil] at hzero
        omega
      · rw [hrequests]
        exact .nil
      · intro id
        have hzero : (w.db.readRun runId).countP (IsPeerResponse id ·) = 0 := by
          refine List.countP_eq_zero.mpr ?_
          intro e he hresponse
          have hanswer : IsPeerResponse id e := of_decide_eq_true hresponse
          exact (hnone e he).2 ⟨hanswer.1, hanswer.2.1⟩
        omega
      · intro e he htype hsource
        exact absurd ⟨htype, hsource⟩ (hnone e he).2
  | tail _ hs ih => exact ⟨contractIs_grown ih.1 hs.grown, ih.2.step ih.1 hs⟩

end runs

/-! ### A request without an id -/

/-- A contract of one stage, whose assignment may ask peers. -/
def askingTeam : TeamContract where
  contractId := "demo"
  stages := [{ stageId := "build", resultKind := "artifact", goal := "build",
               requiredCapabilities := {"peer.request"},
               stageId_ne := build_ne, resultKind_ne := artifact_ne, goal_ne := build_ne }]
  contractId_ne := demo_ne
  version_pos := defaultVersion_pos
  parallel_bounds := defaultParallel_bounds
  attempts_bounds := defaultAttempts_bounds
  lease_bounds := defaultLease_bounds

/-- A run with it, a builder and a helper. -/
def askingRun : StoreWorld where
  db := runAll Database.appended .initial
    [setupEvent "a" "run-a" "run.created" [("team_contract", .dict [("contract_id", .str "demo"),
        ("stages", .list [.dict [("stage_id", .str "build"), ("result_kind", .str "artifact"),
          ("goal", .str "build"), ("required_capabilities", .list [.str "peer.request"])]])])],
      setupEvent "builder" "run-a" "agent.registered" [("agent_id", .str "builder"),
        ("capabilities", .list [.str "peer.request"])],
      setupEvent "helper" "run-a" "agent.registered" [("agent_id", .str "helper"),
        ("capabilities", .list [.str "peer.respond"])]]
  drawn := 0

/-- The patch that gives the stage to the builder. -/
def askingPatch : CommandCandidate where
  candidateId := "patch"
  idempotencyKey := "patch"
  runId := "run-a"
  taskId := "task"
  actorId := "coordinator"
  kind := .planPatch
  payload := [("revision", .int 1), ("contract_id", .str "demo"), ("contract_version", .int 1),
    ("reason", .str "start"),
    ("stages", .list [.dict [("stage_id", .str "build"), ("state", .str "active"),
      ("agent_id", .str "builder")]]),
    ("assignments", .list [.dict [("assignment_id", .str "build-1"), ("stage_id", .str "build"),
      ("attempt", .int 1), ("agent_id", .str "builder"), ("goal", .str "build"),
      ("required_capabilities", .list [.str "peer.request"]), ("result_kind", .str "artifact"),
      ("lease_seconds", .int 30)]])]
  idempotencyKey_ne := patch_ne
  runId_ne := runA_ne
  taskId_ne := task_ne
  actorId_ne := coordinator_ne

/-- The builder asks the helper. -/
def askHelper (correlation : Json) : CommandCandidate where
  candidateId := "ask"
  idempotencyKey := "ask"
  runId := "run-a"
  taskId := "task"
  actorId := "builder"
  kind := .peerRequest
  payload := [("assignment_id", .str "build-1"), ("receiver", .str "helper"), ("brief", .str "how?"),
    ("scope", .list []), ("permissions", .list []), ("correlation_id", correlation)]
  runId_ne := runA_ne
  taskId_ne := task_ne
  actorId_ne := builder_ne

/-- The store after the patch. -/
def askingAssigned : StoreWorld := (submitAlone askingPatch 40 askingRun).2

/-- The kernel accepts a request whose correlation id is null, as the candidate has it. -/
theorem null_correlation_accepted :
    askingRun.db.ContractIs "run-a" (some askingTeam) ∧
      (∃ d : KernelDecision, d.accepted = true ∧ Program.Runs kernelStep
        (submit controlKernel none askingPatch) askingRun (.ok d) askingAssigned) ∧
      (∃ d : KernelDecision, d.accepted = true ∧ Program.Runs kernelStep
        (submit controlKernel none (askHelper .null)) askingAssigned (.ok d)
        (submitAlone (askHelper .null) 40 askingAssigned).2) ∧
      ¬ PeerExchanges "run-a" (submitAlone (askHelper .null) 40 askingAssigned).2.db := by
  have hnull : ∃ e ∈ peerRequestsIn (submitAlone (askHelper .null) 40 askingAssigned).2.db "run-a",
      e.text "correlation_id" = none := by
    decide +kernel
  refine ⟨by decide +kernel, runs_of_acceptedWithin (by decide +kernel),
    runs_of_acceptedWithin (by decide +kernel), ?_⟩
  intro hexchanges
  obtain ⟨e, he, htext⟩ := hnull
  obtain ⟨_, _, id, -, hid, -⟩ := hexchanges.requests e he
  rw [htext] at hid
  cases hid

/-- The call does not commit a peer request whose correlation id is not fresh. -/
def freshCall (c : CommandCandidate) (w : StoreWorld) : (withStore kernelInterface).Op → Bool
  | .inr (.commitCommand _ .accepted _ _ _ _) =>
      c.kind ≠ .peerRequest ∨ ∃ id ∈ (correlationOf c).asStr, id ≠ "" ∧
        ∀ e ∈ peerRequestsIn w.db c.runId, e.text "correlation_id" ≠ some id
  | _ => true

theorem freshCorrelation_of_freshCall {c : CommandCandidate} {w : StoreWorld}
    {op : (withStore kernelInterface).Op} (h : freshCall c w op) (hcommits : CommitsAcceptance op)
    (hkind : c.kind = .peerRequest) : FreshCorrelation w.db c := by
  obtain ⟨key, decision, events, precondition, guard, rfl⟩ := hcommits
  cases of_decide_eq_true h with
  | inl hother => exact absurd hkind hother
  | inr hid => exact hid

/-- The store after a submission that nobody disturbs, as far as its request is fresh. -/
def askedAfter (c : CommandCandidate) (w : StoreWorld) : StoreWorld :=
  ((aloneAt.restrict (fun w op => freshCall c w op)).after 40 (submit controlKernel none c) w).2

/-- A submission whose request is fresh is steps of a run. -/
theorem peerSteps_of_reaches {runId : String} {c : CommandCandidate} {α : Type}
    {p p' : Program (withStore kernelInterface) α} {w w' : StoreWorld}
    (h : Program.Reaches (fun w op r w' => kernelStep w op r w' ∧ freshCall c w op) p w p' w')
    (hp : ∀ op, p.CanRequest anyReply op → (submit controlKernel none c).CanRequest anyReply op) :
    Relation.ReflTransGen (PeerStep runId) w w' := by
  induction h with
  | refl => exact .refl
  | @step op next r _ _ _ _ hs _ ih =>
      refine .head (.submission (hp op (.inl rfl)) hs.1 ?_) (ih ?_)
      · exact fun hcommits hkind _ => freshCorrelation_of_freshCall hs.2 hcommits hkind
      · exact fun op' hop' => hp op' (.inr ⟨r, trivial, hop'⟩)

theorem peerSteps_askedAfter {runId : String} (c : CommandCandidate) (w : StoreWorld) :
    Relation.ReflTransGen (PeerStep runId) w (askedAfter c w) :=
  peerSteps_of_reaches (Program.Strategy.after_reaches _ 40 _ _) (fun _ h => h)

/-- A request with an id of its own is an exchange. -/
theorem asked_with_id :
    (peerRequestsIn (askedAfter (askHelper (.str "question")) (askedAfter askingPatch askingRun)).db
      "run-a").length = 1 ∧
    PeerExchanges "run-a"
      (askedAfter (askHelper (.str "question")) (askedAfter askingPatch askingRun)).db := by
  have hcontract : askingRun.db.ContractIs "run-a" (some askingTeam) := by
    decide +kernel
  refine ⟨by decide +kernel, peer_exchanges_one_to_one hcontract (by decide +kernel) ?_⟩
  exact (peerSteps_askedAfter askingPatch askingRun).trans (peerSteps_askedAfter _ _)

end CrazyHarness
