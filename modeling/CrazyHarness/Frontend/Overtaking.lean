import CrazyHarness.Frontend.PendingCampaign

/-! # Overtaken requests

The runs of the browser: timely runs forget no request, and a step that is not timely is one after
which the answers decide whether a request is forgotten.

* `pending_never_forgotten`: in a run of timely steps every step is faithful, and any other step can
  be gone on with, by answers alone, to a step that is not.
* `overtaken_request_forgotten`: two overlapping calls for one request, and a third that begins the
  next one in between. -/

namespace CrazyHarness.Frontend

open Lib

namespace Browser

variable {b : Browser} {p c : ℕ} {page : Page} {call : Call}

/-- Timely steps that lead to one that is not faithful. -/
def Overtakable (b : Browser) : Prop :=
  ∃ rest, EveryStep step Timely b rest ∧ ¬ EveryStep step Faithful b rest

theorem Overtakable.of_step {op : BrowserOp} (htimely : b.Timely op) (h : (b.step op).Overtakable) :
    b.Overtakable := by
  obtain ⟨rest, hrest, hunfaithful⟩ := h
  exact ⟨op :: rest, ⟨htimely, hrest⟩, fun hfaithful => hunfaithful hfaithful.2⟩

theorem timely_of_takes (hpage : b.pages[p]? = some page) {op : PageOp} (htakes : page.takes op = none) :
    b.Timely (.page p op) := by
  intro taken htaken
  rw [hpage] at htaken
  rw [Option.bind_some, htakes] at htaken
  cases htaken

theorem step_page (hpage : b.pages[p]? = some page) (op : PageOp) :
    (b.step (.page p op)).storage = (page.step b.storage op).2 ∧
      (b.step (.page p op)).pages[p]? = some (page.step b.storage op).1 := by
  have hlt := (List.getElem?_eq_some_iff.mp hpage).1
  simp only [step, hpage]
  exact ⟨trivial, List.getElem?_set_self hlt⟩

/-- While the call `c` of the page `p` is under way, the storage holds another request. -/
structure Late (b : Browser) (p c : ℕ) (page : Page) (call : Call) : Prop where
  on_page : b.pages[p]? = some page
  has_call : page.calls[c]? = some call
  ok : CallsOk page
  other : ∃ id, storedId b.storage = some id ∧ id ≠ call.request.requestId

/-- If that call clears the storage, the other request is forgotten. -/
theorem Late.overtakable_of_clears (h : b.Late p c page call) (op : PageOp)
    (htakes : page.takes op = none) (hclears : (page.step b.storage op).2 = none)
    (hending : ∀ own ∈ page.ending op, own.1 = call.request.requestId) : b.Overtakable := by
  refine ⟨[.page p op], ⟨timely_of_takes h.on_page htakes, trivial⟩, ?_⟩
  intro hfaithful
  obtain ⟨id, hstored, hne⟩ := h.other
  rcases hfaithful.1.1 id hstored with hkept | ⟨p', page', op', hop, hpage', heard, hown, -⟩
  · rw [(step_page h.on_page op).1, hclears] at hkept
    cases hkept
  · cases hop
    obtain rfl := Option.some.inj (hpage'.symm.trans h.on_page)
    exact hne (hending _ hown)

theorem Late.overtakable_confirming (h : b.Late p c page call) (hphase : call.phase = .confirming) :
    b.Overtakable := by
  refine h.overtakable_of_clears (.confirmed c .resolved call.request.requestId) rfl ?_ ?_
  · simp [Page.step, Page.confirmed, h.has_call, hphase]
  · simp [Page.ending, h.has_call, Page.posted, hphase]

theorem Late.overtakable_creating (h : b.Late p c page call) (hphase : call.phase = .creating) :
    b.Overtakable := by
  have hlt := (List.getElem?_eq_some_iff.mp h.has_call).1
  have hstep : page.step b.storage (.created c .resolved call.request.requestId) =
      (page.moveCall c call .confirming (call.heard ++ [.resolved]), b.storage) := by
    simp [Page.step, Page.created, h.has_call, hphase]
  obtain ⟨hstorage, hpages⟩ := step_page h.on_page (.created c .resolved call.request.requestId)
  rw [hstep] at hstorage hpages
  have hlate : (b.step (.page p (.created c .resolved call.request.requestId))).Late p c
      (page.moveCall c call .confirming (call.heard ++ [.resolved]))
      { call with phase := .confirming, heard := call.heard ++ [.resolved] } := by
    refine ⟨hpages, ?_, ?_, ?_⟩
    · simp [Page.moveCall, hlt]
    · exact Page.callsOk_moveCall h.ok c call _ _ (by simp) (fun _ => by simp [Response.decisive])
    · rw [hstorage]
      exact h.other
  exact .of_step (timely_of_takes h.on_page rfl) (hlate.overtakable_confirming rfl)

theorem Late.overtakable_settled (h : b.Late p c page call) {k : ℕ} {ownsRecovery : Bool}
    (hphase : call.phase = .awaiting k ownsRecovery) {r : Recovery} (hr : page.recoveries[k]? = some r)
    {answer : Response} (hsettled : r.phase = .settled answer) (hdecisive : answer.decisive = true) :
    b.Overtakable := by
  refine h.overtakable_of_clears (.resumed c call.request.requestId) rfl ?_ ?_
  · simp [Page.step, Page.resumed, h.has_call, hphase, hr, hsettled, hdecisive]
  · obtain ⟨r', hr', hid⟩ := h.ok.awaited call (List.mem_of_getElem? h.has_call) k ownsRecovery hphase
    obtain rfl := Option.some.inj (hr.symm.trans hr')
    simp [Page.ending, h.has_call, Page.posted, hphase, hr, hid]

/-- The recovery `k` moves. -/
theorem Late.moveRecovery (h : b.Late p c page call) {k : ℕ} {r : Recovery}
    (hr : page.recoveries[k]? = some r) {move : Recovery → Recovery} (hmove : Recovery.Moves move)
    (op : PageOp) (hop : ∀ storage, page.step storage op = (page.moveRecovery k move, storage)) :
    (b.step (.page p op)).Late p c (page.moveRecovery k move) call ∧
      (page.moveRecovery k move).recoveries[k]? = some (move r) := by
  obtain ⟨hstorage, hpages⟩ := step_page h.on_page op
  rw [hop] at hstorage hpages
  refine ⟨⟨hpages, h.has_call, Page.callsOk_moveRecovery h.ok k hmove, ?_⟩, ?_⟩
  · rw [hstorage]
    exact h.other
  · simp [Page.moveRecovery, hr]

section recovery

variable {k attempt : ℕ} {ownsRecovery : Bool} {r : Recovery}

theorem Late.overtakable_recoveryConfirming (h : b.Late p c page call)
    (hphase : call.phase = .awaiting k ownsRecovery) (hr : page.recoveries[k]? = some r)
    (hattempt : r.phase = .confirming attempt) : b.Overtakable := by
  obtain ⟨hlate, hmoved⟩ := h.moveRecovery hr (Recovery.confirmed_moves .resolved)
    (.recoveryConfirmed k .resolved) (fun _ => rfl)
  have hsettled : (r.confirmed .resolved).phase = .settled .resolved := by
    simp [Recovery.confirmed, hattempt]
  exact .of_step (timely_of_takes h.on_page rfl) (hlate.overtakable_settled hphase hmoved hsettled rfl)

theorem Late.overtakable_recoveryCreating (h : b.Late p c page call)
    (hphase : call.phase = .awaiting k ownsRecovery) (hr : page.recoveries[k]? = some r)
    (hattempt : r.phase = .creating attempt) : b.Overtakable := by
  obtain ⟨hlate, hmoved⟩ := h.moveRecovery hr (Recovery.created_moves .resolved)
    (.recoveryCreated k .resolved) (fun _ => rfl)
  have hconfirming : (r.created .resolved).phase = .confirming attempt := by
    simp [Recovery.created, hattempt]
  exact .of_step (timely_of_takes h.on_page rfl)
    (hlate.overtakable_recoveryConfirming hphase hmoved hconfirming)

theorem Late.overtakable_recovery (h : b.Late p c page call)
    (hphase : call.phase = .awaiting k ownsRecovery) (hr : page.recoveries[k]? = some r)
    (hopen : page.recoveryOpen k = true) : b.Overtakable := by
  cases hattempt : r.phase with
  | creating attempt => exact h.overtakable_recoveryCreating hphase hr hattempt
  | confirming attempt => exact h.overtakable_recoveryConfirming hphase hr hattempt
  | sleeping attempt =>
      have hlt : attempt < r.maxAttempts := by
        have hok := h.ok.recoveries r (List.mem_of_getElem? hr)
        simpa only [Recovery.Ok, hattempt] using hok
      have hcreating : r.woken.phase = .creating (attempt + 1) := by
        simp [Recovery.woken, hattempt, Nat.succ_le_of_lt hlt]
      obtain ⟨hlate, hmoved⟩ := h.moveRecovery hr Recovery.woken_moves (.recoveryWoken k) (fun _ => rfl)
      exact .of_step (timely_of_takes h.on_page rfl)
        (hlate.overtakable_recoveryCreating hphase hmoved hcreating)
  | settled answer =>
      refine h.overtakable_settled hphase hr hattempt ?_
      simpa [Page.recoveryOpen, hr, hattempt] using hopen

end recovery

theorem Late.overtakable (h : b.Late p c page call) (hopen : page.isOpen call = true) :
    b.Overtakable := by
  cases hphase : call.phase with
  | creating => exact h.overtakable_creating hphase
  | confirming => exact h.overtakable_confirming hphase
  | awaiting k ownsRecovery =>
      obtain ⟨r, hr, -⟩ := h.ok.awaited call (List.mem_of_getElem? h.has_call) k ownsRecovery hphase
      exact h.overtakable_recovery hphase hr (by simpa [Page.isOpen, hphase] using hopen)
  | returned => simp [Page.isOpen, hphase] at hopen

/-! ### Steps that are not timely -/

/-- A step that begins a request stores it, and leaves the calls of before. -/
theorem begins_step {op : PageOp} {id : RequestId} (htakes : page.takes op = some (id, true))
    (storage : Storage) :
    storedId (page.step storage op).2 = some id ∧ page.ending op = none ∧
      (page.step storage op).1.recoveries = page.recoveries ∧
      ∀ (c : ℕ) (call : Call), page.calls[c]? = some call →
        (page.step storage op).1.calls[c]? = some call := by
  cases op with
  | createIds | created | confirmed | recoveryCreated | recoveryConfirmed | recoveryWoken | resumed =>
      cases htakes
  | recover i maxAttempts =>
      simp only [Page.takes, Option.bind_eq_some_iff] at htakes
      obtain ⟨other, -, hother⟩ := htakes
      split at hother <;> cases hother
  | prepare i draft =>
      simp only [Page.takes] at htakes
      split at htakes
      next ids hids =>
        split at htakes
        next hnone =>
          cases htakes
          have hpending := Option.isNone_iff_eq_none.mp hnone
          obtain ⟨-, -, hstored⟩ := @Page.prepare_began page storage _ _ hids hpending draft
          simpa [Page.step, Page.prepare, hids, Page.ending] using hstored
        · cases htakes
      · cases htakes
  | submit i draft =>
      simp only [Page.takes, Option.map_eq_some_iff] at htakes
      obtain ⟨ids, hids, htaken⟩ := htakes
      obtain ⟨rfl, hnone⟩ := Prod.mk.inj htaken
      have hpending := Option.isNone_iff_eq_none.mp hnone
      obtain ⟨-, -, hstored⟩ := @Page.prepare_began page storage _ _ hids hpending draft
      have hcurrent : ids.pendingId.getD ids.current = ids.current := by
        simp [RequestIds.pendingId, hpending]
      rw [hcurrent]
      simp only [Page.step, Page.submitEvalCampaign, hids, Page.ending]
      refine ⟨hstored, trivial, trivial, ?_⟩
      intro c call hcall
      exact (List.getElem?_append_left (List.getElem?_eq_some_iff.mp hcall).1).trans hcall

/-- A step that takes a request that is pending already leaves an open call for it. -/
theorem takes_step {op : PageOp} {id : RequestId} (h : CallsOk page)
    (htakes : page.takes op = some (id, false)) (storage : Storage) :
    (page.step storage op).2 = storage ∧ ∃ (c : ℕ) (call : Call),
      (page.step storage op).1.calls[c]? = some call ∧
      call.request.requestId = id ∧ (page.step storage op).1.isOpen call = true := by
  cases op with
  | createIds | created | confirmed | recoveryCreated | recoveryConfirmed | recoveryWoken | resumed =>
      cases htakes
  | prepare i draft =>
      simp only [Page.takes] at htakes
      split at htakes
      · split at htakes <;> cases htakes
      · cases htakes
  | submit i draft =>
      simp only [Page.takes, Option.map_eq_some_iff] at htakes
      obtain ⟨ids, hids, htaken⟩ := htakes
      obtain ⟨rfl, hsome⟩ := Prod.mk.inj htaken
      obtain ⟨request, hpending⟩ := Option.isSome_iff_exists.mp (Option.isNone_eq_false_iff.mp hsome)
      have hprepare : ids.prepare draft storage = (request, ids, storage) := by
        simp [RequestIds.prepare, hpending]
      simp only [Page.step, Page.submitEvalCampaign, hids, hprepare]
      exact ⟨trivial, page.calls.length, _, List.getElem?_concat_length,
        by simp [RequestIds.pendingId, hpending], rfl⟩
  | recover i maxAttempts =>
      simp only [Page.takes, Option.bind_eq_some_iff] at htakes
      obtain ⟨other, hslot, hother⟩ := htakes
      split at hother
      next hjoinable =>
        cases hother
        rcases Page.recover_cases h i maxAttempts with
          ⟨hnone, -⟩ | ⟨request, k, owns, page₁, htaken, -, -, -, -, -, hjoin, heq⟩
        · rw [hnone] at hslot
          cases hslot
        · obtain rfl := Option.some.inj (htaken.symm.trans hslot)
          refine ⟨rfl, page₁.calls.length, { ids := i, request, phase := .awaiting k owns }, ?_, rfl, ?_⟩
          · simp only [Page.step, heq]
            exact List.getElem?_concat_length
          · simp only [Page.step, heq]
            exact hjoin.symm.trans hjoinable
      · cases hother

/-- After a step that is not timely the answers may lead to one that is not faithful. -/
theorem overtakable_of_untimely (h : b.Ok) {op : BrowserOp} (huntimely : ¬ b.Timely op) :
    ∃ rest, EveryStep step Timely (b.step op) rest ∧ ¬ EveryStep step Faithful b (op :: rest) := by
  have hlater : (b.step op).Overtakable →
      ∃ rest, EveryStep step Timely (b.step op) rest ∧ ¬ EveryStep step Faithful b (op :: rest) := by
    rintro ⟨rest, hrest, hunfaithful⟩
    exact ⟨rest, hrest, fun hfaithful => hunfaithful hfaithful.2⟩
  cases op with
  | newPage => exact absurd trivial huntimely
  | reload p => exact absurd trivial huntimely
  | page p op =>
      simp only [Timely, not_forall] at huntimely
      obtain ⟨⟨id, begins⟩, htaken, hfree⟩ := huntimely
      obtain ⟨page, hpage, htakes⟩ := Option.bind_eq_some_iff.mp htaken
      have hok := h page (List.mem_of_getElem? hpage)
      obtain ⟨hstorage, hpages⟩ := step_page hpage op
      by_cases hstored : ∀ other ∈ storedId b.storage, other = id
      · -- A request is begun while a call for another one is open.
        obtain ⟨rfl, hopen⟩ : begins = true ∧ ∃ page' ∈ b.pages, ∃ call ∈ page'.calls,
            page'.isOpen call = true ∧ call.request.requestId ≠ id := by
          by_contra hnone
          refine hfree ⟨hstored, ?_⟩
          intro hbegins page' hpage' call hcall hcallOpen
          by_contra hne
          exact hnone ⟨hbegins, page', hpage', call, hcall, hcallOpen, hne⟩
        obtain ⟨page', hpage', call, hcall, hcallOpen, hne⟩ := hopen
        obtain ⟨hbegun, -, hrecoveries, hcalls⟩ := begins_step htakes b.storage
        obtain ⟨q, hq⟩ := List.getElem?_of_mem hpage'
        obtain ⟨c, hc⟩ := List.getElem?_of_mem hcall
        have hother : ∃ other, storedId (b.step (.page p op)).storage = some other ∧
            other ≠ call.request.requestId := ⟨id, by rw [hstorage]; exact hbegun, hne.symm⟩
        refine hlater ?_
        by_cases hqp : q = p
        · subst hqp
          obtain rfl := Option.some.inj (hpage.symm.trans hq)
          refine Late.overtakable ⟨hpages, hcalls c call hc, Page.callsOk_step hok.toCallsOk op, hother⟩ ?_
          unfold Page.isOpen Page.recoveryOpen at hcallOpen ⊢
          rw [hrecoveries]
          exact hcallOpen
        · have hkept : (b.step (.page p op)).pages[q]? = some page' := by
            simp only [step, hpage]
            rw [List.getElem?_set_ne (Ne.symm hqp)]
            exact hq
          exact Late.overtakable ⟨hkept, hc, (h page' hpage').toCallsOk, hother⟩ hcallOpen
      · obtain ⟨other, hother, hne⟩ : ∃ other, storedId b.storage = some other ∧ other ≠ id := by
          simpa using hstored
        cases begins with
        | true =>
            -- The request that was stored is overwritten.
            obtain ⟨hbegun, hending, -⟩ := begins_step htakes b.storage
            refine ⟨[], trivial, ?_⟩
            intro hfaithful
            rcases hfaithful.1.1 other hother with hkept | ⟨p', page', op', hop, hpage', heard, hown, -⟩
            · rw [hstorage, hbegun] at hkept
              exact hne (Option.some.inj hkept).symm
            · cases hop
              obtain rfl := Option.some.inj (hpage'.symm.trans hpage)
              rw [hending] at hown
              cases hown
        | false =>
            -- A call takes a request that the storage no longer holds.
            obtain ⟨hsame, c, call, hc, rfl, hopen⟩ := takes_step hok.toCallsOk htakes b.storage
            refine hlater (Late.overtakable
              ⟨hpages, hc, Page.callsOk_step hok.toCallsOk op, other, ?_, hne⟩ hopen)
            rw [hstorage, hsame]
            exact hother

theorem ok_run {ops : List BrowserOp} (h : b.Ok) (htimely : EveryStep step Timely b ops) :
    EveryStep step Faithful b ops ∧ (runAll step b ops).Ok := by
  induction ops generalizing b with
  | nil => exact ⟨trivial, h⟩
  | cons op ops ih =>
      obtain ⟨hfaithful, hok⟩ := ih (ok_step h htimely.1) htimely.2
      exact ⟨⟨faithful_of_timely h htimely.1, hfaithful⟩, hok⟩

end Browser

/-- In a run of timely steps no pending request is forgotten; any other step can be gone on with, by
timely steps, so that one is. -/
theorem pending_never_forgotten (storage : Storage) (ops : List BrowserOp)
    (htimely : EveryStep Browser.step Browser.Timely (.closed storage) ops) :
    EveryStep Browser.step Browser.Faithful (.closed storage) ops ∧
      ∀ op, ¬ (runAll Browser.step (.closed storage) ops).Timely op →
        ∃ rest, EveryStep Browser.step Browser.Timely
            (runAll Browser.step (.closed storage) (ops ++ [op])) rest ∧
          ¬ EveryStep Browser.step Browser.Faithful (runAll Browser.step (.closed storage) ops)
            (op :: rest) := by
  obtain ⟨hfaithful, hok⟩ := Browser.ok_run (Browser.ok_closed storage) htimely
  refine ⟨hfaithful, ?_⟩
  intro op huntimely
  rw [runAll_append]
  exact Browser.overtakable_of_untimely hok huntimely

/-! ### Overlapping calls -/

/-- The generated id with this number. -/
def campaignId (n : ℕ) : RequestId where
  text := "campaign-" ++ toString n
  nonblank := by
    have hletters : ("campaign-".toList.any fun c => !isWhiteSpace c) = true := by decide
    rw [String.toList_append, List.any_append, hletters, Bool.true_or]

/-- While a recovery is under way the same request is submitted and confirmed. -/
def overlappingRun : List BrowserOp :=
  [.newPage, .page 0 (.createIds (campaignId 1)), .page 0 (.prepare 0 [("title", .str "Campaign")]),
    .page 0 (.recover 0 none), .page 0 (.submit 0 [("title", .str "Campaign")]),
    .page 0 (.created 1 .resolved (campaignId 2)), .page 0 (.confirmed 1 .resolved (campaignId 2))]

theorem pending_never_forgotten_overlapping :
    EveryStep Browser.step Browser.Faithful (.closed none) overlappingRun ∧
      ∃ rest, EveryStep Browser.step Browser.Timely (runAll Browser.step (.closed none)
          (overlappingRun ++ [.page 0 (.submit 0 [("title", .str "Next campaign")])])) rest ∧
        ¬ EveryStep Browser.step Browser.Faithful (runAll Browser.step (.closed none) overlappingRun)
          (.page 0 (.submit 0 [("title", .str "Next campaign")]) :: rest) := by
  have hrun := pending_never_forgotten none overlappingRun (by decide +kernel)
  exact ⟨hrun.1, hrun.2 _ (by decide +kernel)⟩

/-- Then another one is begun, its POST is lost, and the recovery ends. -/
def overtakenRun : List BrowserOp :=
  overlappingRun ++ [.page 0 (.submit 0 [("title", .str "Next campaign")]),
    .page 0 (.created 2 (.rejected .typeError) (campaignId 3)),
    .page 0 (.recoveryCreated 0 .resolved), .page 0 (.recoveryConfirmed 0 .resolved)]

theorem overtaken_request_forgotten :
    ¬ ∀ storage ops, EveryStep Browser.step Browser.Faithful (.closed storage) ops := by
  intro h
  have hlast : (runAll Browser.step (.closed none) overtakenRun).Faithful
      (.page 0 (.resumed 0 (campaignId 3))) :=
    everyStep_iff_prefixes.mp (h none (overtakenRun ++ [.page 0 (.resumed 0 (campaignId 3))]))
      overtakenRun _ List.prefix_rfl
  rcases hlast.1 (campaignId 2) (by decide +kernel) with hkept | ⟨p, page, op, hop, hpage, heard, hown, -⟩
  · revert hkept
    decide +kernel
  · cases hop
    have hid : ((runAll Browser.step (.closed none) overtakenRun).pages[0]?.bind
        (fun page => page.ending (.resumed 0 (campaignId 3)))).map Prod.fst = some (campaignId 1) := by
      decide +kernel
    rw [hpage, Option.bind_some, hown] at hid
    have hne : campaignId 2 ≠ campaignId 1 := by decide +kernel
    exact hne (Option.some.inj hid)

end CrazyHarness.Frontend
