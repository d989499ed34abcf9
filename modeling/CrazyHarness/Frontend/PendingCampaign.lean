import CrazyHarness.Frontend.CampaignRequests

/-! # What the browser remembers of a paid request

Runs of pages that share one storage, in any order of their steps and with any answers.

* `Faithful`: a step clears a pending request, in the storage or in an ids object, only in a call that
  has heard a success or a definitive rejection for the same request id.
* `Timely`: the condition under which the code is so.  A request is begun only when no call for
  another one is open, and none is taken while the storage holds another one.
* `PageOk`: the invariant; what an open call may clear is its own request.
* `ok_step`, `faithful_of_timely`: from such a state every timely step keeps the invariant and is
  faithful. -/

namespace CrazyHarness.Frontend

open Lib

/-! ### What is pending -/

/-- The id of the request that the storage holds. -/
def storedId (storage : Storage) : Option RequestId :=
  (readPending storage).map EvalCampaignRequest.requestId

/-- The id of the request that the ids object holds. -/
def RequestIds.pendingId (ids : RequestIds) : Option RequestId :=
  ids.pending.map EvalCampaignRequest.requestId

namespace Page

/-- The id of the request that the ids object `i` holds. -/
def slot (page : Page) (i : ℕ) : Option RequestId := page.ids[i]?.bind RequestIds.pendingId

/-- The id of the request that a call posts, itself or through the recovery it awaits, and what the
server has answered to it. -/
def posted (page : Page) (call : Call) : Option (RequestId × List Response) :=
  match call.phase with
  | .awaiting k _ => page.recoveries[k]?.map (fun r => (r.request.requestId, r.heard))
  | _ => some (call.request.requestId, call.heard)

/-- The recovery may still end so that those who await it rotate. -/
def recoveryOpen (page : Page) (k : ℕ) : Bool :=
  match page.recoveries[k]?.map Recovery.phase with
  | some (.settled answer) => answer.decisive
  | some _ => true
  | none => false

/-- The call may still rotate its ids object. -/
def isOpen (page : Page) (call : Call) : Bool :=
  match call.phase with
  | .creating => true
  | .confirming => true
  | .awaiting k _ => page.recoveryOpen k
  | .returned => false

/-- A recovery that is begun for this id, or joined, has not failed already. -/
def joinable (page : Page) (id : RequestId) : Bool :=
  match page.pendingRecoveries.lookup id with
  | some k => page.recoveryOpen k
  | none => true

/-- The request and the answers of the call that goes on with this step. -/
def ending (page : Page) : PageOp → Option (RequestId × List Response)
  | .created c answer _ =>
      (page.calls[c]?.bind page.posted).map (fun own => (own.1, own.2 ++ [answer]))
  | .confirmed c _ _ | .resumed c _ => page.calls[c]?.bind page.posted
  | _ => none

/-- The call that goes on has heard a success or a definitive rejection for the id. -/
def Answered (page : Page) (op : PageOp) (id : RequestId) : Prop :=
  ∃ heard, page.ending op = some (id, heard) ∧ heard.any Response.decisive = true

/-- The id of the request that a step takes from its ids object for a call that may rotate, and
whether it begins it. -/
def takes (page : Page) : PageOp → Option (RequestId × Bool)
  | .prepare i _ =>
      match page.ids[i]? with
      | some ids => if ids.pending.isNone then some (ids.current, true) else none
      | none => none
  | .submit i _ =>
      page.ids[i]?.map (fun ids => (ids.pendingId.getD ids.current, ids.pending.isNone))
  | .recover i _ => (page.slot i).bind (fun id => if page.joinable id then some (id, false) else none)
  | _ => none

end Page

namespace Browser

/-- The ids object `i` of the page `p` holds a request of this id. -/
def slot (b : Browser) (p i : ℕ) : Option RequestId := b.pages[p]?.bind (fun page => page.slot i)

/-- A pending request is cleared, or another one put in its place, only in a call that has heard a
success or a definitive rejection for its id. -/
def Faithful (b : Browser) (op : BrowserOp) : Prop :=
  let answered (id : RequestId) : Prop :=
    ∃ p page pageOp, op = .page p pageOp ∧ b.pages[p]? = some page ∧ page.Answered pageOp id
  (∀ id, storedId b.storage = some id → storedId (b.step op).storage = some id ∨ answered id) ∧
    ∀ p i id, b.slot p i = some id → op ≠ .reload p → (b.step op).slot p i = some id ∨ answered id

/-- A request of this id may be taken; `begins` tells whether it is a new one. -/
def Free (b : Browser) (id : RequestId) (begins : Bool) : Prop :=
  (∀ other ∈ storedId b.storage, other = id) ∧
    (begins = true → ∀ page ∈ b.pages, ∀ call ∈ page.calls, page.isOpen call = true →
      call.request.requestId = id)

instance (b : Browser) (id : RequestId) (begins : Bool) : Decidable (b.Free id begins) := by
  unfold Free
  infer_instance

/-- A request is begun only when no call for another one is open, and none is taken while the
storage holds another one. -/
def Timely (b : Browser) : BrowserOp → Prop
  | .page p op =>
      ∀ taken ∈ b.pages[p]?.bind (fun page => page.takes op), b.Free taken.1 taken.2
  | _ => True

instance (b : Browser) : ∀ op, Decidable (b.Timely op)
  | .page p op => inferInstanceAs (Decidable
      (∀ taken ∈ b.pages[p]?.bind (fun page => page.takes op), b.Free taken.1 taken.2))
  | .newPage => inferInstanceAs (Decidable True)
  | .reload _ => inferInstanceAs (Decidable True)

end Browser

/-! ### The invariant of a page -/

/-- What a recovery has heard by the time it awaits there. -/
def Recovery.Ok (r : Recovery) : Prop :=
  match r.phase with
  | .creating attempt => attempt ≤ r.maxAttempts
  | .confirming attempt => attempt ≤ r.maxAttempts ∧ r.heard.any Response.decisive = true
  | .sleeping attempt => attempt < r.maxAttempts
  | .settled answer => answer.decisive = true → r.heard.any Response.decisive = true

/-- Calls and recoveries have heard what their place in the code says. -/
structure CallsOk (page : Page) : Prop where
  heard : ∀ call ∈ page.calls, call.phase = .confirming → call.heard.any Response.decisive = true
  recoveries : ∀ r ∈ page.recoveries, r.Ok
  awaited : ∀ call ∈ page.calls, ∀ k ownsRecovery, call.phase = .awaiting k ownsRecovery →
    ∃ r, page.recoveries[k]? = some r ∧ r.request.requestId = call.request.requestId
  shared : ∀ entry ∈ page.pendingRecoveries,
    ∃ r, page.recoveries[entry.2]? = some r ∧ r.request.requestId = entry.1

/-- Besides, the ids objects and the storage hold nothing that an open call might clear wrongly. -/
structure PageOk (stored : Option RequestId) (page : Page) : Prop extends CallsOk page where
  slot_own : ∀ call ∈ page.calls, page.isOpen call = true →
    ∀ id ∈ page.slot call.ids, id = call.request.requestId
  stored_own : ∀ call ∈ page.calls, page.isOpen call = true →
    ∀ id ∈ stored, id = call.request.requestId

namespace Recovery

theorem failed_ok {r : Recovery} {attempt : ℕ} {error : RequestError} {heard : List Response}
    (hattempt : attempt ≤ r.maxAttempts)
    (hheard : isDefinitiveRejection error = true → heard.any Response.decisive = true) :
    Ok { r with phase := r.failed attempt error, heard := heard } := by
  unfold failed
  split
  · exact hheard
  next h =>
    simp only [Bool.or_eq_true, beq_iff_eq, not_or] at h
    exact lt_of_le_of_ne hattempt h.2

theorem created_ok {r : Recovery} (h : r.Ok) (answer : Response) : (r.created answer).Ok := by
  unfold created
  split
  next attempt hphase =>
    simp only [Ok, hphase] at h
    cases answer with
    | resolved => exact ⟨h, by simp [Response.decisive]⟩
    | rejected error => exact failed_ok h (fun he => by simp [Response.decisive, he])
  · exact h

theorem confirmed_ok {r : Recovery} (h : r.Ok) (answer : Response) : (r.confirmed answer).Ok := by
  unfold confirmed
  split
  next attempt hphase =>
    simp only [Ok, hphase] at h
    cases answer with
    | resolved => exact fun _ => h.2
    | rejected error => exact failed_ok h.1 (fun _ => h.2)
  · exact h

theorem woken_ok {r : Recovery} (h : r.Ok) : r.woken.Ok := by
  unfold woken
  split
  next attempt hphase =>
    split
    next hle => exact hle
    next => exact fun hother => absurd hother Bool.false_ne_true
  · exact h

theorem createPendingCampaignWithRetry_ok (request : EvalCampaignRequest) (maxAttempts : Option ℤ) :
    (createPendingCampaignWithRetry request maxAttempts).Ok := by
  simp only [createPendingCampaignWithRetry, Ok]
  omega

/-- A step of a recovery leaves its request, and starts where it has not settled. -/
structure Moves (move : Recovery → Recovery) : Prop where
  request : ∀ r, (move r).request = r.request
  ok : ∀ {r : Recovery}, r.Ok → (move r).Ok
  settled : ∀ {r : Recovery} {answer : Response}, r.phase = .settled answer → move r = r

theorem created_moves (answer : Response) : Moves (Recovery.created · answer) where
  request r := by unfold created; split <;> rfl
  ok h := created_ok h answer
  settled h := by simp only [created, h]

theorem confirmed_moves (answer : Response) : Moves (Recovery.confirmed · answer) where
  request r := by unfold confirmed; split <;> rfl
  ok h := confirmed_ok h answer
  settled h := by simp only [confirmed, h]

theorem woken_moves : Moves Recovery.woken where
  request r := by unfold woken; split <;> rfl
  ok h := woken_ok h
  settled h := by simp only [woken, h]

end Recovery

namespace Page

variable {page : Page} {storage : Storage}

/-! ### What a step does to the pending requests -/

theorem slot_set {i : ℕ} {ids : RequestIds} (h : page.ids[i]? = some ids) (x : RequestIds) (j : ℕ) :
    ({ page with ids := page.ids.set i x } : Page).slot j =
      if j = i then x.pendingId else page.slot j := by
  have hlt : i < page.ids.length := (List.getElem?_eq_some_iff.mp h).1
  unfold slot
  rw [List.getElem?_set]
  by_cases hj : j = i
  · subst hj
    simp [hlt]
  · simp [hj, Ne.symm hj]

theorem slot_rotate (call : Call) (generated : RequestId) (j : ℕ) :
    (page.rotate call generated).slot j = if j = call.ids then none else page.slot j := by
  unfold slot rotate
  rw [List.getElem?_set]
  by_cases hj : j = call.ids
  · subst hj
    by_cases hlt : call.ids < page.ids.length <;> simp [hlt, RequestIds.rotate, RequestIds.pendingId]
  · simp [hj, Ne.symm hj]

/-- What a step does to the ids objects and the storage: it clears nothing, it begins a request, or a
call that has been answered rotates. -/
inductive Slots (page : Page) (storage : Storage) (op : PageOp) : Prop
  | kept (hslot : ∀ i id, page.slot i = some id → (page.step storage op).1.slot i = some id)
      (hread : ∀ i, (page.step storage op).1.slot i = page.slot i ∨
        (page.step storage op).1.slot i = storedId storage)
      (hstored : storedId (page.step storage op).2 = storedId storage)
  | began (i : ℕ) (id : RequestId) (htakes : page.takes op = some (id, true))
      (hnone : page.slot i = none)
      (hslot : ∀ j, (page.step storage op).1.slot j = if j = i then some id else page.slot j)
      (hstored : storedId (page.step storage op).2 = some id)
  | rotated (call : Call) (hmem : call ∈ page.calls) (hopen : page.isOpen call = true)
      (hanswered : page.Answered op call.request.requestId)
      (hslot : ∀ j, (page.step storage op).1.slot j = if j = call.ids then none else page.slot j)
      (hstored : storedId (page.step storage op).2 = none)

theorem Slots.of_same {op : PageOp} (hslot : (page.step storage op).1.ids = page.ids)
    (hstored : (page.step storage op).2 = storage) : Slots page storage op := by
  have hsame : ∀ i, (page.step storage op).1.slot i = page.slot i := by
    intro i
    unfold slot
    rw [hslot]
  exact .kept (fun i id h => (hsame i).trans h) (fun i => .inl (hsame i)) (by rw [hstored])

/-- `prepare` begins a request where none is pending, and does nothing else. -/
theorem prepare_began {i : ℕ} {ids : RequestIds} (hids : page.ids[i]? = some ids)
    (hpending : ids.pending = none) (draft : Dict) :
    page.slot i = none ∧
      (∀ j, ({ page with ids := page.ids.set i (ids.prepare draft storage).2.1 } : Page).slot j =
        if j = i then some ids.current else page.slot j) ∧
      storedId (ids.prepare draft storage).2.2 = some ids.current := by
  refine ⟨by simp [slot, hids, RequestIds.pendingId, hpending], ?_, ?_⟩
  · intro j
    rw [slot_set hids]
    simp [RequestIds.prepare, hpending, RequestIds.pendingId, requestOf]
  · simp [RequestIds.prepare, hpending, storedId, requestOf]

theorem prepare_kept {i : ℕ} {ids : RequestIds} {request : EvalCampaignRequest}
    (hids : page.ids[i]? = some ids) (hpending : ids.pending = some request) (draft : Dict) :
    page.ids.set i (ids.prepare draft storage).2.1 = page.ids ∧
      (ids.prepare draft storage).2.2 = storage := by
  have hprepare : ids.prepare draft storage = (request, ids, storage) := by
    simp [RequestIds.prepare, hpending]
  rw [hprepare]
  refine ⟨?_, rfl⟩
  obtain ⟨hlt, hget⟩ := List.getElem?_eq_some_iff.mp hids
  rw [← hget]
  exact List.set_getElem_self hlt

theorem slots_prepare (i : ℕ) (draft : Dict) : Slots page storage (.prepare i draft) := by
  cases hids : page.ids[i]? with
  | none => exact .of_same (by simp [step, Page.prepare, hids]) (by simp [step, Page.prepare, hids])
  | some ids =>
      have hstep : page.step storage (.prepare i draft) =
          ({ page with ids := page.ids.set i (ids.prepare draft storage).2.1 },
            (ids.prepare draft storage).2.2) := by
        simp [step, Page.prepare, hids]
      cases hpending : ids.pending with
      | none =>
          obtain ⟨hnone, hslot, hstored⟩ := prepare_began hids hpending draft
          refine .began i ids.current (by simp [takes, hids, hpending]) hnone ?_ ?_
          · rw [hstep]; exact hslot
          · rw [hstep]; exact hstored
      | some request =>
          obtain ⟨hset, hstorage⟩ := prepare_kept hids hpending draft
          exact .of_same (by rw [hstep]; exact hset) (by rw [hstep]; exact hstorage)

theorem slots_submit (i : ℕ) (draft : Dict) : Slots page storage (.submit i draft) := by
  cases hids : page.ids[i]? with
  | none =>
      exact .of_same (by simp [step, submitEvalCampaign, hids])
        (by simp [step, submitEvalCampaign, hids])
  | some ids =>
      have hstep : page.step storage (.submit i draft) =
          ({ page with
              ids := page.ids.set i (ids.prepare draft storage).2.1
              calls := page.calls ++
                [{ ids := i, request := (ids.prepare draft storage).1, phase := .creating }] },
            (ids.prepare draft storage).2.2) := by
        simp [step, submitEvalCampaign, hids]
      cases hpending : ids.pending with
      | none =>
          obtain ⟨hnone, hslot, hstored⟩ := prepare_began hids hpending draft
          refine .began i ids.current (by simp [takes, hids, hpending, RequestIds.pendingId]) hnone ?_ ?_
          · rw [hstep]; exact hslot
          · rw [hstep]; exact hstored
      | some request =>
          obtain ⟨hset, hstorage⟩ := prepare_kept hids hpending draft
          exact .of_same (by rw [hstep]; exact hset) (by rw [hstep]; exact hstorage)

theorem slots_createIds (generated : RequestId) : Slots page storage (.createIds generated) := by
  have hstep : page.step storage (.createIds generated) =
      ({ page with ids := page.ids ++ [(createCampaignRequestIds generated storage).1] },
        clearUnreadable storage) := rfl
  have hslot : ∀ i, (page.step storage (.createIds generated)).1.slot i =
      if i = page.ids.length then storedId storage else page.slot i := by
    intro i
    rw [hstep]
    unfold slot
    rcases lt_trichotomy i page.ids.length with hlt | rfl | hgt
    · rw [List.getElem?_append_left hlt, if_neg hlt.ne]
    · simp [createCampaignRequestIds, RequestIds.pendingId, storedId]
    · rw [List.getElem?_eq_none (by simpa using hgt), List.getElem?_eq_none hgt.le, if_neg hgt.ne']
  refine .kept ?_ ?_ ?_
  · intro i id hid
    rw [hslot, if_neg ?_]
    · exact hid
    · rintro rfl
      simp [slot] at hid
  · intro i
    rw [hslot]
    split
    · exact .inr rfl
    · exact .inl rfl
  · rw [hstep]
    simp [storedId]

theorem slots_created (c : ℕ) (answer : Response) (generated : RequestId) :
    Slots page storage (.created c answer generated) := by
  cases hcall : page.calls[c]? with
  | none => exact .of_same (by simp [step, Page.created, hcall]) (by simp [step, Page.created, hcall])
  | some call =>
      by_cases hphase : call.phase = .creating
      · cases answer with
        | resolved =>
            exact .of_same (by simp [step, Page.created, hcall, hphase, moveCall])
              (by simp [step, Page.created, hcall, hphase])
        | rejected error =>
            by_cases hdefinitive : isDefinitiveRejection error = true
            · have hstep : page.step storage (.created c (.rejected error) generated) =
                  ((page.moveCall c call .returned (call.heard ++ [.rejected error])).rotate call generated,
                    none) := by
                simp [step, Page.created, hcall, hphase, hdefinitive]
              refine .rotated call (List.mem_of_getElem? hcall) (by simp [isOpen, hphase]) ?_ ?_ ?_
              · refine ⟨call.heard ++ [.rejected error], ?_, by simp [Response.decisive, hdefinitive]⟩
                simp [ending, hcall, posted, hphase]
              · rw [hstep]
                exact slot_rotate call generated
              · rw [hstep]
                rfl
            · exact .of_same (by simp [step, Page.created, hcall, hphase, hdefinitive, moveCall])
                (by simp [step, Page.created, hcall, hphase, hdefinitive])
      · exact .of_same (by simp [step, Page.created, hcall, hphase])
          (by simp [step, Page.created, hcall, hphase])

theorem slots_confirmed (h : PageOk (storedId storage) page) (c : ℕ) (answer : Response)
    (generated : RequestId) : Slots page storage (.confirmed c answer generated) := by
  cases hcall : page.calls[c]? with
  | none =>
      exact .of_same (by simp [step, Page.confirmed, hcall]) (by simp [step, Page.confirmed, hcall])
  | some call =>
      have hmem := List.mem_of_getElem? hcall
      by_cases hphase : call.phase = .confirming
      · cases answer with
        | resolved =>
            have hstep : page.step storage (.confirmed c .resolved generated) =
                ((page.moveCall c call .returned call.heard).rotate call generated, none) := by
              simp [step, Page.confirmed, hcall, hphase]
            refine .rotated call hmem (by simp [isOpen, hphase]) ?_ ?_ ?_
            · refine ⟨call.heard, ?_, h.heard call hmem hphase⟩
              simp [ending, hcall, posted, hphase]
            · rw [hstep]
              exact slot_rotate call generated
            · rw [hstep]
              rfl
        | rejected error =>
            exact .of_same (by simp [step, Page.confirmed, hcall, hphase, moveCall])
              (by simp [step, Page.confirmed, hcall, hphase])
      · exact .of_same (by simp [step, Page.confirmed, hcall, hphase])
          (by simp [step, Page.confirmed, hcall, hphase])

theorem slots_recover (i : ℕ) (maxAttempts : Option ℤ) :
    Slots page storage (.recover i maxAttempts) := by
  refine .of_same ?_ rfl
  simp only [step, recoverPendingEvalCampaign]
  split
  · rfl
  · split
    · rfl
    · split <;> rfl

theorem releaseRecovery_ids (call : Call) (k : ℕ) (ownsRecovery : Bool) :
    (page.releaseRecovery call k ownsRecovery).ids = page.ids := by
  unfold releaseRecovery
  split <;> rfl

theorem slots_resumed (h : PageOk (storedId storage) page) (c : ℕ) (generated : RequestId) :
    Slots page storage (.resumed c generated) := by
  have hnothing : page.step storage (.resumed c generated) = (page, storage) →
      Slots page storage (.resumed c generated) := by
    intro hstep
    exact .of_same (by rw [hstep]) (by rw [hstep])
  cases hcall : page.calls[c]? with
  | none => exact hnothing (by simp [step, Page.resumed, hcall])
  | some call =>
      have hmem := List.mem_of_getElem? hcall
      cases hphase : call.phase with
      | creating | confirming | returned => exact hnothing (by simp [step, Page.resumed, hcall, hphase])
      | awaiting k ownsRecovery =>
          obtain ⟨r, hr, hrequest⟩ := h.awaited call hmem k ownsRecovery hphase
          cases hsettled : r.phase with
          | creating | confirming | sleeping =>
              exact hnothing (by simp [step, Page.resumed, hcall, hphase, hr, hsettled])
          | settled answer =>
              cases hdecisive : answer.decisive with
              | false =>
                  refine .of_same ?_ ?_
                  · simp [step, Page.resumed, hcall, hphase, hr, hsettled, hdecisive, releaseRecovery_ids,
                      moveCall]
                  · simp [step, Page.resumed, hcall, hphase, hr, hsettled, hdecisive]
              | true =>
                  have hstep : page.step storage (.resumed c generated) =
                      (((page.moveCall c call .returned call.heard).releaseRecovery call k
                        ownsRecovery).rotate call generated, none) := by
                    simp [step, Page.resumed, hcall, hphase, hr, hsettled, hdecisive]
                  have hok := h.recoveries r (List.mem_of_getElem? hr)
                  simp only [Recovery.Ok, hsettled] at hok
                  refine .rotated call hmem (by simp [isOpen, recoveryOpen, hphase, hr, hsettled, hdecisive])
                    ?_ ?_ ?_
                  · refine ⟨r.heard, ?_, hok hdecisive⟩
                    simp [ending, hcall, posted, hphase, hr, hrequest]
                  · rw [hstep]
                    intro j
                    rw [slot_rotate]
                    unfold slot
                    rw [releaseRecovery_ids]
                    rfl
                  · rw [hstep]
                    rfl

theorem slots_step (h : PageOk (storedId storage) page) (op : PageOp) : Slots page storage op := by
  cases op with
  | createIds generated => exact slots_createIds generated
  | prepare i draft => exact slots_prepare i draft
  | submit i draft => exact slots_submit i draft
  | created c answer generated => exact slots_created c answer generated
  | confirmed c answer generated => exact slots_confirmed h c answer generated
  | recover i maxAttempts => exact slots_recover i maxAttempts
  | recoveryCreated | recoveryConfirmed | recoveryWoken => exact .of_same rfl rfl
  | resumed c generated => exact slots_resumed h c generated

/-! ### What a step does to the calls -/

/-- The open calls after a step: open ones of before, or one that has just taken its request. -/
def OpenFrom (page page' : Page) (taken : Option (RequestId × Bool)) : Prop :=
  ∀ call ∈ page'.calls, page'.isOpen call = true →
    (∃ old ∈ page.calls, page.isOpen old = true ∧ old.ids = call.ids ∧ old.request = call.request) ∨
      ∃ begins, taken = some (call.request.requestId, begins) ∧
        ∀ id ∈ page'.slot call.ids, id = call.request.requestId

theorem OpenFrom.of_same {page' : Page} {taken : Option (RequestId × Bool)}
    (hcalls : page'.calls = page.calls) (hrecoveries : page'.recoveries = page.recoveries) :
    OpenFrom page page' taken := by
  intro call hcall hopen
  refine .inl ⟨call, hcalls ▸ hcall, ?_, rfl, rfl⟩
  unfold isOpen recoveryOpen at hopen ⊢
  rw [← hrecoveries]
  exact hopen

theorem callsOk_of_same {page' : Page} (h : CallsOk page) (hcalls : page'.calls = page.calls)
    (hrecoveries : page'.recoveries = page.recoveries)
    (hshared : page'.pendingRecoveries = page.pendingRecoveries) : CallsOk page' where
  heard := by rw [hcalls]; exact h.heard
  recoveries := by rw [hrecoveries]; exact h.recoveries
  awaited := by rw [hcalls, hrecoveries]; exact h.awaited
  shared := by rw [hshared, hrecoveries]; exact h.shared

/-- A call that moves does not await a recovery, and confirms only what has been answered. -/
theorem callsOk_moveCall (h : CallsOk page) (c : ℕ) (call : Call) (phase : CallPhase)
    (heard : List Response) (hawaiting : ∀ k ownsRecovery, phase ≠ .awaiting k ownsRecovery)
    (hheard : phase = .confirming → heard.any Response.decisive = true) :
    CallsOk (page.moveCall c call phase heard) where
  heard := by
    intro other hother hphase
    rcases List.mem_or_eq_of_mem_set hother with hold | rfl
    · exact h.heard other hold hphase
    · exact hheard hphase
  recoveries := h.recoveries
  awaited := by
    intro other hother k ownsRecovery hphase
    rcases List.mem_or_eq_of_mem_set hother with hold | rfl
    · exact h.awaited other hold k ownsRecovery hphase
    · exact absurd hphase (hawaiting k ownsRecovery)
  shared := h.shared

theorem openFrom_moveCall {c : ℕ} {call : Call} (hmem : call ∈ page.calls) {phase : CallPhase}
    {heard : List Response} {taken : Option (RequestId × Bool)}
    (hopen : phase = .returned ∨ page.isOpen call = true) :
    OpenFrom page (page.moveCall c call phase heard) taken := by
  intro other hother hotherOpen
  rcases List.mem_or_eq_of_mem_set hother with hold | rfl
  · exact .inl ⟨other, hold, hotherOpen, rfl, rfl⟩
  · rcases hopen with rfl | hopen
    · cases hotherOpen
    · exact .inl ⟨call, hmem, hopen, rfl, rfl⟩

theorem openFrom_rotate {page' : Page} {taken : Option (RequestId × Bool)}
    (h : OpenFrom page page' taken) (rotating : Call) (generated : RequestId) :
    OpenFrom page (page'.rotate rotating generated) taken := by
  intro call hcall hopen
  rcases h call hcall hopen with hold | ⟨begins, htaken, hslot⟩
  · exact .inl hold
  · refine .inr ⟨begins, htaken, ?_⟩
    intro id hid
    rw [slot_rotate] at hid
    split at hid
    · cases hid
    · exact hslot id hid

theorem callsOk_release (h : CallsOk page) (call : Call) (k : ℕ) (ownsRecovery : Bool) :
    CallsOk (page.releaseRecovery call k ownsRecovery) := by
  unfold releaseRecovery
  split
  · exact { h with shared := fun entry hentry => h.shared entry (List.mem_of_mem_filter hentry) }
  · exact h

theorem openFrom_release {page' : Page} {taken : Option (RequestId × Bool)}
    (h : OpenFrom page page' taken) (released : Call) (k : ℕ) (ownsRecovery : Bool) :
    OpenFrom page (page'.releaseRecovery released k ownsRecovery) taken := by
  unfold releaseRecovery
  split
  · exact h
  · exact h

theorem getElem?_moveRecovery {move : Recovery → Recovery} (hmove : Recovery.Moves move) (k j : ℕ)
    {r : Recovery} (hr : page.recoveries[j]? = some r) :
    ∃ r', (page.moveRecovery k move).recoveries[j]? = some r' ∧ r'.request = r.request := by
  unfold moveRecovery
  rw [List.getElem?_modify]
  by_cases hj : k = j
  · exact ⟨move r, by simp [hj, hr], hmove.request r⟩
  · exact ⟨r, by simp [hj, hr], rfl⟩

theorem callsOk_moveRecovery (h : CallsOk page) (k : ℕ) {move : Recovery → Recovery}
    (hmove : Recovery.Moves move) : CallsOk (page.moveRecovery k move) where
  heard := h.heard
  recoveries := by
    intro r hr
    obtain ⟨j, hj⟩ := List.getElem?_of_mem hr
    simp only [moveRecovery, List.getElem?_modify] at hj
    cases hold : page.recoveries[j]? with
    | none => simp [hold] at hj
    | some old =>
        have hok := h.recoveries old (List.mem_of_getElem? hold)
        by_cases hkj : k = j
        · obtain rfl : move old = r := by simpa [hold, hkj] using hj
          exact hmove.ok hok
        · obtain rfl : old = r := by simpa [hold, hkj] using hj
          exact hok
  awaited := by
    intro call hcall j ownsRecovery hphase
    obtain ⟨r, hr, hid⟩ := h.awaited call hcall j ownsRecovery hphase
    obtain ⟨r', hr', hrequest⟩ := getElem?_moveRecovery hmove k j hr
    exact ⟨r', hr', by rw [hrequest, hid]⟩
  shared := by
    intro entry hentry
    obtain ⟨r, hr, hid⟩ := h.shared entry hentry
    obtain ⟨r', hr', hrequest⟩ := getElem?_moveRecovery hmove k entry.2 hr
    exact ⟨r', hr', by rw [hrequest, hid]⟩

/-- A recovery that moves had not settled, so that who awaits it was open. -/
theorem openFrom_moveRecovery (h : CallsOk page) (k : ℕ) {move : Recovery → Recovery}
    (hmove : Recovery.Moves move) {taken : Option (RequestId × Bool)} :
    OpenFrom page (page.moveRecovery k move) taken := by
  intro call hcall hopen
  refine .inl ⟨call, hcall, ?_, rfl, rfl⟩
  cases hphase : call.phase with
  | creating | confirming => simp [isOpen, hphase]
  | returned => simp [isOpen, hphase] at hopen
  | awaiting j ownsRecovery =>
      obtain ⟨r, hr, -⟩ := h.awaited call hcall j ownsRecovery hphase
      simp only [isOpen, recoveryOpen, hphase, moveRecovery, List.getElem?_modify, hr] at hopen ⊢
      cases hsettled : r.phase with
      | creating | confirming | sleeping => simp [hsettled]
      | settled answer =>
          by_cases hkj : k = j
          · simpa [hkj, hmove.settled hsettled, hsettled] using hopen
          · simpa [hkj, hsettled] using hopen

theorem callsOk_append (h : CallsOk page) {i : ℕ} {request : EvalCampaignRequest}
    (phase : CallPhase) (hconfirming : phase ≠ .confirming)
    (hawaiting : ∀ k ownsRecovery, phase = .awaiting k ownsRecovery →
      ∃ r, page.recoveries[k]? = some r ∧ r.request.requestId = request.requestId) :
    CallsOk { page with calls := page.calls ++ [{ ids := i, request, phase }] } where
  heard := by
    intro call hcall hphase
    rcases List.mem_append.mp hcall with hold | hnew
    · exact h.heard call hold hphase
    · rw [List.mem_singleton.mp hnew] at hphase
      exact absurd hphase hconfirming
  recoveries := h.recoveries
  awaited := by
    intro call hcall k ownsRecovery hphase
    rcases List.mem_append.mp hcall with hold | hnew
    · exact h.awaited call hold k ownsRecovery hphase
    · obtain rfl := List.mem_singleton.mp hnew
      exact hawaiting k ownsRecovery hphase
  shared := h.shared

/-- A recovery of its own for a request that no recovery is shared for. -/
theorem callsOk_newRecovery (h : CallsOk page) (request : EvalCampaignRequest)
    (maxAttempts : Option ℤ) :
    CallsOk { page with
      recoveries := page.recoveries ++ [createPendingCampaignWithRetry request maxAttempts]
      pendingRecoveries := page.pendingRecoveries ++ [(request.requestId, page.recoveries.length)] } where
  heard := h.heard
  recoveries := by
    intro r hr
    rcases List.mem_append.mp hr with hold | hnew
    · exact h.recoveries r hold
    · rw [List.mem_singleton.mp hnew]
      exact Recovery.createPendingCampaignWithRetry_ok request maxAttempts
  awaited := by
    intro call hcall k ownsRecovery hphase
    obtain ⟨r, hr, hid⟩ := h.awaited call hcall k ownsRecovery hphase
    exact ⟨r, by rw [List.getElem?_append_left (List.getElem?_eq_some_iff.mp hr).1, hr], hid⟩
  shared := by
    intro entry hentry
    rcases List.mem_append.mp hentry with hold | hnew
    · obtain ⟨r, hr, hid⟩ := h.shared entry hold
      exact ⟨r, by rw [List.getElem?_append_left (List.getElem?_eq_some_iff.mp hr).1, hr], hid⟩
    · obtain rfl := List.mem_singleton.mp hnew
      exact ⟨_, List.getElem?_concat_length, rfl⟩

/-- What `recoverPendingEvalCampaign` finds or starts. -/
theorem recover_cases (h : CallsOk page) (i : ℕ) (maxAttempts : Option ℤ) :
    page.slot i = none ∧ page.recoverPendingEvalCampaign i maxAttempts = page ∨
      ∃ (request : EvalCampaignRequest) (k : ℕ) (ownsRecovery : Bool) (page₁ : Page),
        page.slot i = some request.requestId ∧ CallsOk page₁ ∧ page₁.ids = page.ids ∧
        page₁.calls = page.calls ∧
        (∀ (j : ℕ) (r : Recovery), page.recoveries[j]? = some r → page₁.recoveries[j]? = some r) ∧
        (∃ r, page₁.recoveries[k]? = some r ∧ r.request.requestId = request.requestId) ∧
        page.joinable request.requestId = page₁.recoveryOpen k ∧
        page.recoverPendingEvalCampaign i maxAttempts =
          { page₁ with
            calls := page₁.calls ++ [{ ids := i, request, phase := .awaiting k ownsRecovery }] } := by
  unfold recoverPendingEvalCampaign
  cases hids : page.ids[i]? with
  | none => exact .inl ⟨by simp [slot, hids], rfl⟩
  | some ids =>
      cases hpending : ids.pending with
      | none => exact .inl ⟨by simp [slot, hids, RequestIds.pendingId, hpending], by simp [hpending]⟩
      | some request =>
          have hslot : page.slot i = some request.requestId := by
            simp [slot, hids, RequestIds.pendingId, hpending]
          simp only [hpending]
          refine .inr ?_
          cases hlookup : page.pendingRecoveries.lookup request.requestId with
          | some k =>
              have hentry : (request.requestId, k) ∈ page.pendingRecoveries := by
                obtain ⟨l₁, l₂, hl, -⟩ := List.lookup_eq_some_iff.mp hlookup
                simp [hl]
              exact ⟨request, k, false, page, hslot, h, rfl, rfl, fun _ _ hr => hr,
                h.shared _ hentry, by simp [joinable, hlookup], rfl⟩
          | none =>
              refine ⟨request, page.recoveries.length, true, _, hslot,
                callsOk_newRecovery h request maxAttempts, rfl, rfl, ?_, ?_, ?_, rfl⟩
              · intro j r hr
                exact (List.getElem?_append_left (List.getElem?_eq_some_iff.mp hr).1).trans hr
              · exact ⟨_, List.getElem?_concat_length, rfl⟩
              · simp [joinable, hlookup, recoveryOpen, createPendingCampaignWithRetry]

theorem callsOk_step (h : CallsOk page) (op : PageOp) : CallsOk (page.step storage op).1 := by
  cases op with
  | createIds generated => exact callsOk_of_same h rfl rfl rfl
  | prepare i draft =>
      simp only [step, Page.prepare]
      split
      · exact h
      · exact callsOk_of_same h rfl rfl rfl
  | submit i draft =>
      simp only [step, submitEvalCampaign]
      split
      · exact h
      · exact callsOk_of_same (callsOk_append h .creating (by simp) (by simp)) rfl rfl rfl
  | created c answer generated =>
      simp only [step, Page.created]
      split
      next call hcall =>
        split
        · cases answer with
          | resolved => exact callsOk_moveCall h c call _ _ (by simp) (fun _ => by simp [Response.decisive])
          | rejected error =>
              have hmoved := callsOk_moveCall h c call .returned (call.heard ++ [.rejected error])
                (by simp) (by simp)
              simp only
              split
              · exact callsOk_of_same hmoved rfl rfl rfl
              · exact hmoved
        · exact h
      · exact h
  | confirmed c answer generated =>
      simp only [step, Page.confirmed]
      split
      next call hcall =>
        split
        · have hmoved := callsOk_moveCall h c call .returned call.heard (by simp) (by simp)
          cases answer with
          | resolved => exact callsOk_of_same hmoved rfl rfl rfl
          | rejected error => exact hmoved
        · exact h
      · exact h
  | recover i maxAttempts =>
      simp only [step]
      rcases recover_cases h i maxAttempts with
        ⟨-, hsame⟩ | ⟨request, k, owns, page₁, -, h₁, -, -, -, hr, -, heq⟩
      · rw [hsame]
        exact h
      · rw [heq]
        refine callsOk_append h₁ _ (by simp) ?_
        rintro _ _ ⟨⟩
        exact hr
  | recoveryCreated k answer => exact callsOk_moveRecovery h k (Recovery.created_moves answer)
  | recoveryConfirmed k answer => exact callsOk_moveRecovery h k (Recovery.confirmed_moves answer)
  | recoveryWoken k => exact callsOk_moveRecovery h k Recovery.woken_moves
  | resumed c generated =>
      simp only [step, Page.resumed]
      split
      next call hcall =>
        split
        next k owns hphase =>
          split
          next answer hsettled =>
            have hmoved := callsOk_release
              (callsOk_moveCall h c call .returned call.heard (by simp) (by simp)) call k owns
            split
            · exact callsOk_of_same hmoved rfl rfl rfl
            · exact hmoved
          · exact h
        · exact h
      · exact h

theorem openFrom_append (i : ℕ) (request : EvalCampaignRequest) (phase : CallPhase) (begins : Bool)
    {taken : Option (RequestId × Bool)} {page' : Page}
    (hcalls : page'.calls = page.calls ++ [{ ids := i, request, phase }])
    (hopen : ∀ call ∈ page.calls, page'.isOpen call = true → page.isOpen call = true)
    (htaken : page'.isOpen { ids := i, request, phase } = true →
      taken = some (request.requestId, begins))
    (hslot : page'.slot i = some request.requestId) : OpenFrom page page' taken := by
  intro call hcall hcallOpen
  rw [hcalls] at hcall
  rcases List.mem_append.mp hcall with hold | hnew
  · exact .inl ⟨call, hold, hopen call hold hcallOpen, rfl, rfl⟩
  · obtain rfl := List.mem_singleton.mp hnew
    refine .inr ⟨begins, htaken hcallOpen, ?_⟩
    intro id hid
    exact (Option.some.inj (hslot.symm.trans hid)).symm

theorem openFrom_submit (i : ℕ) (draft : Dict) :
    OpenFrom page (page.step storage (.submit i draft)).1 (page.takes (.submit i draft)) := by
  cases hids : page.ids[i]? with
  | none => exact .of_same (by simp [step, submitEvalCampaign, hids]) (by simp [step, submitEvalCampaign, hids])
  | some ids =>
      have hslot := slot_set hids (ids.prepare draft storage).2.1 i
      rw [if_pos rfl] at hslot
      refine openFrom_append i (ids.prepare draft storage).1 .creating ids.pending.isNone ?_ ?_ ?_ ?_
      · simp [step, submitEvalCampaign, hids]
      · intro call _ hopen
        simpa [step, submitEvalCampaign, hids, isOpen, recoveryOpen] using hopen
      · intro _
        cases hpending : ids.pending <;>
          simp [takes, hids, RequestIds.prepare, RequestIds.pendingId, hpending, requestOf]
      · have hstep : (page.step storage (.submit i draft)).1.slot i =
            ({ page with ids := page.ids.set i (ids.prepare draft storage).2.1 } : Page).slot i := by
          simp [step, submitEvalCampaign, hids, slot]
        rw [hstep, hslot]
        cases hpending : ids.pending <;>
          simp [RequestIds.prepare, RequestIds.pendingId, hpending, requestOf]

theorem openFrom_recover (h : CallsOk page) (i : ℕ) (maxAttempts : Option ℤ) :
    OpenFrom page (page.recoverPendingEvalCampaign i maxAttempts)
      (page.takes (.recover i maxAttempts)) := by
  rcases recover_cases h i maxAttempts with
    ⟨-, hsame⟩ | ⟨request, k, owns, page₁, hslot, -, hids, hcalls, hkept, -, hjoin, heq⟩
  · rw [hsame]
    exact .of_same rfl rfl
  · rw [heq]
    refine openFrom_append i request (.awaiting k owns) false (by rw [hcalls]) ?_ ?_ ?_
    · -- A recovery that a call of before awaits is still the same.
      intro call hcall hopen
      cases hphase : call.phase with
      | creating | confirming => simp [isOpen, hphase]
      | returned => simp [isOpen, hphase] at hopen
      | awaiting j ownsRecovery =>
          obtain ⟨r, hr, -⟩ := h.awaited call hcall j ownsRecovery hphase
          simp only [isOpen, recoveryOpen, hphase, hkept j r hr] at hopen
          simpa only [isOpen, recoveryOpen, hphase, hr] using hopen
    · intro hopen
      have hjoinable : page.joinable request.requestId = true := hjoin.trans hopen
      simp [takes, hslot, hjoinable]
    · unfold slot at hslot ⊢
      rw [hids]
      exact hslot

theorem openFrom_step (h : CallsOk page) (op : PageOp) :
    OpenFrom page (page.step storage op).1 (page.takes op) := by
  have hself : OpenFrom page page (page.takes op) := .of_same rfl rfl
  cases op with
  | createIds generated => exact .of_same rfl rfl
  | prepare i draft =>
      simp only [step, Page.prepare]
      split
      · exact .of_same rfl rfl
      · exact .of_same rfl rfl
  | submit i draft => exact openFrom_submit i draft
  | created c answer generated =>
      simp only [step, Page.created]
      split
      next call hcall =>
        have hmem := List.mem_of_getElem? hcall
        split
        next hphase =>
          have hopen : page.isOpen call = true := by simp [isOpen, hphase]
          cases answer with
          | resolved => exact openFrom_moveCall hmem (.inr hopen)
          | rejected error =>
              simp only
              split
              · exact openFrom_rotate (openFrom_moveCall hmem (.inl rfl)) call generated
              · exact openFrom_moveCall hmem (.inl rfl)
        · exact hself
      · exact hself
  | confirmed c answer generated =>
      simp only [step, Page.confirmed]
      split
      next call hcall =>
        have hmem := List.mem_of_getElem? hcall
        split
        · cases answer with
          | resolved => exact openFrom_rotate (openFrom_moveCall hmem (.inl rfl)) call generated
          | rejected error => exact openFrom_moveCall hmem (.inl rfl)
        · exact hself
      · exact hself
  | recover i maxAttempts => exact openFrom_recover h i maxAttempts
  | recoveryCreated k answer => exact openFrom_moveRecovery h k (Recovery.created_moves answer)
  | recoveryConfirmed k answer => exact openFrom_moveRecovery h k (Recovery.confirmed_moves answer)
  | recoveryWoken k => exact openFrom_moveRecovery h k Recovery.woken_moves
  | resumed c generated =>
      simp only [step, Page.resumed]
      split
      next call hcall =>
        have hmem := List.mem_of_getElem? hcall
        split
        next k owns hphase =>
          split
          · have hreturned : OpenFrom page (page.moveCall c call .returned call.heard)
                (page.takes (.resumed c generated)) := openFrom_moveCall hmem (.inl rfl)
            have hmoved := openFrom_release hreturned call k owns
            split
            · exact openFrom_rotate hmoved call generated
            · exact hmoved
          · exact hself
        · exact hself
      · exact hself

/-! ### Timely steps -/

theorem pageOk_step {op : PageOp} (h : PageOk (storedId storage) page)
    (htimely : ∀ taken ∈ page.takes op, (∀ other ∈ storedId storage, other = taken.1) ∧
      (taken.2 = true → ∀ call ∈ page.calls, page.isOpen call = true →
        call.request.requestId = taken.1)) :
    PageOk (storedId (page.step storage op).2) (page.step storage op).1 where
  toCallsOk := callsOk_step h.toCallsOk op
  slot_own := by
    intro call hcall hopen id hid
    rcases openFrom_step h.toCallsOk op call hcall hopen with
      ⟨old, hold, holdOpen, hids, hrequest⟩ | ⟨begins, htaken, hslot⟩
    · rw [← hids] at hid
      rw [← hrequest]
      cases slots_step h op with
      | kept _ hread _ =>
          rcases hread old.ids with hsame | hstored
          · exact h.slot_own old hold holdOpen id (hsame ▸ hid)
          · exact h.stored_own old hold holdOpen id (hstored ▸ hid)
      | began i begun htakes _ hslot _ =>
          rw [hslot] at hid
          split at hid
          · obtain rfl := Option.some.inj hid
            exact ((htimely _ htakes).2 rfl old hold holdOpen).symm
          · exact h.slot_own old hold holdOpen id hid
      | rotated rotating _ _ _ hslot _ =>
          rw [hslot] at hid
          split at hid
          · cases hid
          · exact h.slot_own old hold holdOpen id hid
    · exact hslot id hid
  stored_own := by
    intro call hcall hopen id hid
    rcases openFrom_step h.toCallsOk op call hcall hopen with
      ⟨old, hold, holdOpen, -, hrequest⟩ | ⟨begins, htaken, -⟩
    · rw [← hrequest]
      cases slots_step h op with
      | kept _ _ hstored => exact h.stored_own old hold holdOpen id (hstored ▸ hid)
      | began i begun htakes _ _ hstored =>
          obtain rfl := Option.some.inj (hstored.symm.trans hid)
          exact ((htimely _ htakes).2 rfl old hold holdOpen).symm
      | rotated _ _ _ _ _ hstored =>
          rw [hstored] at hid
          cases hid
    · cases slots_step h op with
      | kept _ _ hstored => exact (htimely _ htaken).1 id (hstored ▸ hid)
      | began i begun htakes _ _ hstored =>
          obtain rfl := Option.some.inj (hstored.symm.trans hid)
          exact congrArg Prod.fst (Option.some.inj (htakes.symm.trans htaken))
      | rotated _ _ _ _ _ hstored =>
          rw [hstored] at hid
          cases hid

end Page

theorem PageOk.restored {stored stored' : Option RequestId} {page : Page} (h : PageOk stored page)
    (hstored : ∀ call ∈ page.calls, page.isOpen call = true →
      ∀ id ∈ stored', id = call.request.requestId) : PageOk stored' page :=
  { h with stored_own := hstored }

theorem pageOk_empty (stored : Option RequestId) : PageOk stored {} where
  heard := by simp
  recoveries := by simp
  awaited := by simp
  shared := by simp
  slot_own := by simp
  stored_own := by simp

namespace Browser

variable {b : Browser}

/-- The invariant of all pages. -/
def Ok (b : Browser) : Prop := ∀ page ∈ b.pages, PageOk (storedId b.storage) page

theorem ok_closed (storage : Storage) : (closed storage).Ok := fun _ hpage =>
  absurd hpage List.not_mem_nil

theorem ok_step {op : BrowserOp} (h : b.Ok) (htimely : b.Timely op) : (b.step op).Ok := by
  cases op with
  | newPage =>
      intro page hpage
      rcases List.mem_append.mp hpage with hold | hnew
      · exact h page hold
      · rw [List.mem_singleton.mp hnew]
        exact pageOk_empty _
  | reload p =>
      intro page hpage
      rcases List.mem_or_eq_of_mem_set hpage with hold | rfl
      · exact h page hold
      · exact pageOk_empty _
  | page p op =>
      cases hp : b.pages[p]? with
      | none =>
          have hstep : b.step (.page p op) = b := by simp [step, hp]
          rw [hstep]
          exact h
      | some acting =>
          have hstep : b.step (.page p op) = { storage := (acting.step b.storage op).2
                                               pages := b.pages.set p (acting.step b.storage op).1 } := by
            simp [step, hp]
          have hacting := List.mem_of_getElem? hp
          have hfree : ∀ taken ∈ acting.takes op, b.Free taken.1 taken.2 := by
            intro taken htaken
            refine htimely taken ?_
            rw [hp]
            exact htaken
          rw [hstep]
          intro page hpage
          rcases List.mem_or_eq_of_mem_set hpage with hold | rfl
          · refine (h page hold).restored ?_
            intro call hcall hopen id hid
            cases Page.slots_step (h acting hacting) op with
            | kept _ _ hstored => exact (h page hold).stored_own call hcall hopen id (hstored ▸ hid)
            | began i begun htakes _ _ hstored =>
                obtain rfl := Option.some.inj (hstored.symm.trans hid)
                exact ((hfree _ htakes).2 rfl page hold call hcall hopen).symm
            | rotated _ _ _ _ _ hstored =>
                rw [hstored] at hid
                cases hid
          · refine Page.pageOk_step (h acting hacting) ?_
            intro taken htaken
            exact ⟨(hfree taken htaken).1, fun hbegins => (hfree taken htaken).2 hbegins acting hacting⟩

/-- In a state of the invariant, a timely step is faithful. -/
theorem faithful_of_timely {op : BrowserOp} (h : b.Ok) (htimely : b.Timely op) : b.Faithful op := by
  cases op with
  | newPage =>
      refine ⟨fun id hid => .inl hid, ?_⟩
      intro p i id hid _
      refine .inl ?_
      unfold slot at hid ⊢
      obtain ⟨page, hpage, hslot⟩ := Option.bind_eq_some_iff.mp hid
      rw [step, List.getElem?_append_left (List.getElem?_eq_some_iff.mp hpage).1, hpage]
      exact hslot
  | reload q =>
      refine ⟨fun id hid => .inl hid, ?_⟩
      intro p i id hid hne
      refine .inl ?_
      have hpq : q ≠ p := fun heq => hne (congrArg BrowserOp.reload heq)
      unfold slot at hid ⊢
      rw [step, List.getElem?_set_ne hpq]
      exact hid
  | page q op =>
      cases hq : b.pages[q]? with
      | none =>
          have hstep : b.step (.page q op) = b := by simp [step, hq]
          unfold Faithful
          rw [hstep]
          exact ⟨fun id hid => .inl hid, fun p i id hid _ => .inl hid⟩
      | some acting =>
          have hacting := h acting (List.mem_of_getElem? hq)
          have hstep : b.step (.page q op) = { storage := (acting.step b.storage op).2
                                               pages := b.pages.set q (acting.step b.storage op).1 } := by
            simp [step, hq]
          have hslots : ∀ p i, (b.step (.page q op)).slot p i =
              if p = q then (acting.step b.storage op).1.slot i else b.slot p i := by
            intro p i
            rw [hstep]
            unfold slot
            by_cases hpq : p = q
            · subst hpq
              simp [(List.getElem?_eq_some_iff.mp hq).1]
            · simp [hpq, Ne.symm hpq]
          have hown : ∀ p i id, b.slot p i = some id → p = q → acting.slot i = some id := by
            rintro p i id hid rfl
            simpa [slot, hq] using hid
          cases Page.slots_step hacting op with
          | kept hslot _ hstored =>
              refine ⟨fun id hid => .inl ?_, fun p i id hid _ => .inl ?_⟩
              · rw [hstep]
                exact hstored.trans hid
              · rw [hslots]
                split
                next hpq => exact hslot i id (hown p i id hid hpq)
                next => exact hid
          | began j begun htakes hnone hslot hstored =>
              have hfree : b.Free begun true := htimely (begun, true) (by rw [hq]; exact htakes)
              refine ⟨fun id hid => .inl ?_, fun p i id hid _ => .inl ?_⟩
              · rw [hstep, hfree.1 id hid]
                exact hstored
              · rw [hslots]
                split
                next hpq =>
                  have hslotted := hown p i id hid hpq
                  rw [hslot, if_neg ?_]
                  · exact hslotted
                  · rintro rfl
                    rw [hnone] at hslotted
                    cases hslotted
                next => exact hid
          | rotated call hmem hopen hanswered hslot _ =>
              refine ⟨fun id hid => .inr ?_, fun p i id hid _ => ?_⟩
              · rw [hacting.stored_own call hmem hopen id hid]
                exact ⟨q, acting, op, rfl, hq, hanswered⟩
              · rw [hslots]
                split
                next hpq =>
                  have hslotted := hown p i id hid hpq
                  rw [hslot]
                  split
                  next heq =>
                    rw [hacting.slot_own call hmem hopen id (heq ▸ hslotted)]
                    exact .inr ⟨q, acting, op, rfl, hq, hanswered⟩
                  next => exact .inl hslotted
                next => exact .inl hid

end Browser

end CrazyHarness.Frontend
