import CrazyHarness.Lib.Json
import CrazyHarness.Lib.Run

/-! # The campaign requests of the browser

`frontend/src/lib/campaignRequests.ts`.  A campaign costs money, so the browser names each request
once, keeps it in its storage while the outcome is open and posts it again under the same id.

* `readPending`, `createCampaignRequestIds`, `prepare`, `rotate`: the pending request, in the storage
  and in the memory of an ids object.
* `Page`: one loaded page, its ids objects, its calls of `submitEvalCampaign` and
  `recoverPendingEvalCampaign` and the recoveries that these share.  A call is cut where it awaits.
* `Browser`: pages that share one storage; `Browser.step` takes one step of one of them.

The stored text is what `JSON.parse` makes of it.  The waits between two attempts are steps of their
own, however long they take; `sleep` and `onRetry` return.  `heard` is kept for the statements only:
the answers that the server has given to a call. -/

namespace CrazyHarness.Frontend

open Lib

/-! ### Answers -/

/-- What a rejected promise carries, as far as it is looked at. -/
inductive RequestError where
  | typeError
  | apiError (status : ℕ) (retryable : Option Bool)
  | other
deriving DecidableEq

/-- `isRetryableAmbiguousRequest`. -/
def isRetryableAmbiguousRequest : RequestError → Bool
  | .typeError => true
  | .apiError status retryable =>
      retryable == some true || status == 408 || status == 425 || status == 429 || 500 ≤ status
  | .other => false

/-- The errors on which `rotateAfterDefinitiveRejection` rotates. -/
def isDefinitiveRejection : RequestError → Bool
  | .apiError status retryable =>
      status == 400 || status == 422 || (status == 409 && retryable == some false)
  | _ => false

/-- How a promise settles; the value is not looked at. -/
inductive Response where
  | resolved
  | rejected (error : RequestError)
deriving DecidableEq

/-- A success or a definitive rejection. -/
def Response.decisive : Response → Bool
  | .resolved => true
  | .rejected error => isDefinitiveRejection error

/-! ### The pending request -/

/-- The white space of `trim()`. -/
def isWhiteSpace (c : Char) : Bool :=
  (0x9 ≤ c.toNat && c.toNat ≤ 0xD) || c.toNat == 0x20 || c.toNat == 0xA0 || c.toNat == 0x1680 ||
    (0x2000 ≤ c.toNat && c.toNat ≤ 0x200A) || c.toNat == 0x2028 || c.toNat == 0x2029 ||
    c.toNat == 0x202F || c.toNat == 0x205F || c.toNat == 0x3000 || c.toNat == 0xFEFF

/-- A text of which `trim()` leaves something, as every generated id is. -/
structure RequestId where
  text : String
  nonblank : text.toList.any (fun c => !isWhiteSpace c) = true
deriving DecidableEq

/-- `EvalCampaignRequest`: the draft with its `request_id`. -/
structure EvalCampaignRequest where
  fields : Dict
  requestId : RequestId
  has_id : (Dict.get? fields "request_id").bind Json.asStr = some requestId.text
deriving DecidableEq

/-- A stored text: empty, none that `JSON.parse` reads, or the value it reads. -/
inductive StoredText where
  | empty
  | invalid
  | json (value : Json)
deriving DecidableEq

/-- `localStorage` under `PENDING_CAMPAIGN_KEY`. -/
abbrev Storage := Option StoredText

/-- `version === 1`. -/
def isVersionOne : Json → Bool
  | .int n => n == 1
  | .float q _ => q == 1
  | _ => false

/-- The request of a parsed `PendingCampaignRequest`. -/
def pendingOf : Json → Option EvalCampaignRequest
  | .dict parsed =>
      if ((Dict.get? parsed "version").map isVersionOne).getD false then
        match Dict.get? parsed "request" with
        | some (.dict request) =>
            match h : (Dict.get? request "request_id").bind Json.asStr with
            | some s =>
                if hs : s.toList.any (fun c => !isWhiteSpace c) = true then
                  some ⟨request, ⟨s, hs⟩, h⟩
                else none
            | none => none
        | _ => none
      else none
  | _ => none

/-- `readPending`, the value. -/
def readPending : Storage → Option EvalCampaignRequest
  | some (.json value) => pendingOf value
  | _ => none

/-- `readPending`, the storage: a text that names no request is removed. -/
def clearUnreadable (storage : Storage) : Storage :=
  if storage = some .empty ∨ (readPending storage).isSome then storage else none

/-- `JSON.stringify(pending)`. -/
def stringify (request : EvalCampaignRequest) : StoredText :=
  .json (.dict [("version", .int 1), ("request", .dict request.fields)])

@[simp] theorem readPending_none : readPending none = none := rfl

@[simp] theorem readPending_stringify (request : EvalCampaignRequest) :
    readPending (some (stringify request)) = some request := by
  obtain ⟨fields, ⟨text, hnonblank⟩, hid⟩ := request
  have hversion : Dict.get? [("version", Json.int 1), ("request", .dict fields)] "version" =
      some (.int 1) := rfl
  have hrequest : Dict.get? [("version", Json.int 1), ("request", .dict fields)] "request" =
      some (.dict fields) := rfl
  simp only [stringify, readPending, pendingOf, hversion, hrequest, Option.map_some, Option.getD_some,
    isVersionOne]
  split
  · split
    next s hs =>
      obtain rfl := Option.some.inj (hid.symm.trans hs)
      rw [dif_pos hnonblank]
    next hnone => rw [hid] at hnone; cases hnone
  next h => exact absurd rfl h

@[simp] theorem readPending_clearUnreadable (storage : Storage) :
    readPending (clearUnreadable storage) = readPending storage := by
  unfold clearUnreadable
  split
  · rfl
  next h =>
    cases hread : readPending storage with
    | none => rfl
    | some request => exact absurd (.inr (by rw [hread]; rfl)) h

/-- What `createCampaignRequestIds` returns: its `pending` and its `current`. -/
structure RequestIds where
  pending : Option EvalCampaignRequest
  current : RequestId
deriving DecidableEq

/-- `createCampaignRequestIds`; `generated` is what `generate` gives. -/
def createCampaignRequestIds (generated : RequestId) (storage : Storage) : RequestIds × Storage :=
  let pending := readPending storage
  ({ pending, current := (pending.map EvalCampaignRequest.requestId).getD generated },
    clearUnreadable storage)

/-- `{ ...draft, request_id: current }`. -/
def requestOf (draft : Dict) (current : RequestId) : EvalCampaignRequest where
  fields := draft.set "request_id" (.str current.text)
  requestId := current
  has_id := by rw [Dict.get?_set_self]; rfl

namespace RequestIds

/-- `prepare`: the request, then the ids object and the storage. -/
def prepare (ids : RequestIds) (draft : Dict) (storage : Storage) :
    EvalCampaignRequest × RequestIds × Storage :=
  match ids.pending with
  | some request => (request, ids, storage)
  | none =>
      let request := requestOf draft ids.current
      (request, { ids with pending := some request }, some (stringify request))

/-- `rotate`, the ids object; the key is removed from the storage. -/
def rotate (generated : RequestId) : RequestIds where
  pending := none
  current := generated

end RequestIds

/-! ### Calls -/

/-- Where a call awaits. -/
inductive CallPhase where
  | creating
  | confirming
  | awaiting (recovery : ℕ) (ownsRecovery : Bool)
  | returned
deriving DecidableEq

/-- A call of `submitEvalCampaign` or `recoverPendingEvalCampaign`: its ids object, its request. -/
structure Call where
  ids : ℕ
  request : EvalCampaignRequest
  phase : CallPhase
  heard : List Response := []
deriving DecidableEq

/-- Where `createPendingCampaignWithRetry` awaits. -/
inductive RecoveryPhase where
  | creating (attempt : ℕ)
  | confirming (attempt : ℕ)
  | sleeping (attempt : ℕ)
  | settled (result : Response)
deriving DecidableEq

/-- A promise of `createPendingCampaignWithRetry`. -/
structure Recovery where
  request : EvalCampaignRequest
  maxAttempts : ℕ
  phase : RecoveryPhase
  heard : List Response := []
deriving DecidableEq

/-- `createPendingCampaignWithRetry`, up to its first `await`. -/
def createPendingCampaignWithRetry (request : EvalCampaignRequest) (maxAttempts : Option ℤ) :
    Recovery where
  request
  maxAttempts := (max 1 (min (maxAttempts.getD 4) 8)).toNat
  phase := .creating 1

namespace Recovery

/-- The `catch` of an attempt. -/
def failed (r : Recovery) (attempt : ℕ) (error : RequestError) : RecoveryPhase :=
  if !isRetryableAmbiguousRequest error || attempt == r.maxAttempts then .settled (.rejected error)
  else .sleeping attempt

/-- `create` settles. -/
def created (r : Recovery) (answer : Response) : Recovery :=
  match r.phase with
  | .creating attempt =>
      { r with
        phase := match answer with
          | .resolved => .confirming attempt
          | .rejected error => r.failed attempt error
        heard := r.heard ++ [answer] }
  | _ => r

/-- `confirm` settles. -/
def confirmed (r : Recovery) (answer : Response) : Recovery :=
  match r.phase with
  | .confirming attempt =>
      { r with
        phase := match answer with
          | .resolved => .settled .resolved
          | .rejected error => r.failed attempt error }
  | _ => r

/-- `sleep` is over. -/
def woken (r : Recovery) : Recovery :=
  match r.phase with
  | .sleeping attempt =>
      { r with
        phase := if attempt + 1 ≤ r.maxAttempts then .creating (attempt + 1)
          -- "Campaign recovery retry loop exhausted"
          else .settled (.rejected .other) }
  | _ => r

end Recovery

/-! ### Pages -/

/-- A loaded page: its ids objects, calls and recoveries in the order they were made, and
`PENDING_RECOVERIES`. -/
structure Page where
  ids : List RequestIds := []
  calls : List Call := []
  recoveries : List Recovery := []
  pendingRecoveries : List (RequestId × ℕ) := []
deriving DecidableEq

namespace Page

/-- The call `c` goes on awaiting at `phase`. -/
def moveCall (page : Page) (c : ℕ) (call : Call) (phase : CallPhase) (heard : List Response) : Page :=
  { page with calls := page.calls.set c { call with phase, heard } }

/-- `ids.rotate()` in a call. -/
def rotate (page : Page) (call : Call) (generated : RequestId) : Page :=
  { page with ids := page.ids.set call.ids (.rotate generated) }

/-- `prepare(draft)` of the ids object `i`. -/
def prepare (page : Page) (storage : Storage) (i : ℕ) (draft : Dict) : Page × Storage :=
  match page.ids[i]? with
  | none => (page, storage)
  | some ids =>
      let (_, ids, storage) := ids.prepare draft storage
      ({ page with ids := page.ids.set i ids }, storage)

/-- `submitEvalCampaign`, up to `await create(…)`. -/
def submitEvalCampaign (page : Page) (storage : Storage) (i : ℕ) (draft : Dict) : Page × Storage :=
  match page.ids[i]? with
  | none => (page, storage)
  | some ids =>
      let (request, ids, storage) := ids.prepare draft storage
      ({ page with
          ids := page.ids.set i ids
          calls := page.calls ++ [{ ids := i, request, phase := .creating }] }, storage)

/-- `submitEvalCampaign`, `create` settles. -/
def created (page : Page) (storage : Storage) (c : ℕ) (answer : Response) (generated : RequestId) :
    Page × Storage :=
  match page.calls[c]? with
  | some call =>
      if call.phase = .creating then
        match answer with
        | .resolved => (page.moveCall c call .confirming (call.heard ++ [answer]), storage)
        | .rejected error =>
            let page := page.moveCall c call .returned (call.heard ++ [answer])
            if isDefinitiveRejection error then (page.rotate call generated, none) else (page, storage)
      else (page, storage)
  | none => (page, storage)

/-- `submitEvalCampaign`, `confirm` settles. -/
def confirmed (page : Page) (storage : Storage) (c : ℕ) (answer : Response) (generated : RequestId) :
    Page × Storage :=
  match page.calls[c]? with
  | some call =>
      if call.phase = .confirming then
        let page := page.moveCall c call .returned call.heard
        match answer with
        | .resolved => (page.rotate call generated, none)
        | .rejected _ => (page, storage)
      else (page, storage)
  | none => (page, storage)

/-- `recoverPendingEvalCampaign`, up to `await recovery`. -/
def recoverPendingEvalCampaign (page : Page) (i : ℕ) (maxAttempts : Option ℤ) : Page :=
  match page.ids[i]? with
  | none => page
  | some ids =>
      match ids.pending with
      | none => page
      | some pending =>
          match page.pendingRecoveries.lookup pending.requestId with
          | some k =>
              { page with
                calls := page.calls ++ [{ ids := i, request := pending, phase := .awaiting k false }] }
          | none =>
              let k := page.recoveries.length
              { page with
                calls := page.calls ++ [{ ids := i, request := pending, phase := .awaiting k true }]
                recoveries :=
                  page.recoveries ++ [createPendingCampaignWithRetry pending maxAttempts]
                pendingRecoveries := page.pendingRecoveries ++ [(pending.requestId, k)] }

/-- A step of the recovery `k`. -/
def moveRecovery (page : Page) (k : ℕ) (move : Recovery → Recovery) : Page :=
  { page with recoveries := page.recoveries.modify k move }

/-- The `finally` of `recoverPendingEvalCampaign`. -/
def releaseRecovery (page : Page) (call : Call) (k : ℕ) (ownsRecovery : Bool) : Page :=
  if ownsRecovery ∧ page.pendingRecoveries.lookup call.request.requestId = some k then
    { page with
      pendingRecoveries :=
        page.pendingRecoveries.filter (fun entry => entry.1 ≠ call.request.requestId) }
  else page

/-- `recoverPendingEvalCampaign`, `recovery` has settled. -/
def resumed (page : Page) (storage : Storage) (c : ℕ) (generated : RequestId) : Page × Storage :=
  match page.calls[c]? with
  | some call =>
      match call.phase with
      | .awaiting k ownsRecovery =>
          match page.recoveries[k]?.map Recovery.phase with
          | some (.settled answer) =>
              let page := (page.moveCall c call .returned call.heard).releaseRecovery call k ownsRecovery
              if answer.decisive then (page.rotate call generated, none) else (page, storage)
          | _ => (page, storage)
      | _ => (page, storage)
  | none => (page, storage)

end Page

/-! ### The browser -/

/-- A step of a page. -/
inductive PageOp where
  | createIds (generated : RequestId)
  | prepare (i : ℕ) (draft : Dict)
  | submit (i : ℕ) (draft : Dict)
  | created (c : ℕ) (answer : Response) (generated : RequestId)
  | confirmed (c : ℕ) (answer : Response) (generated : RequestId)
  | recover (i : ℕ) (maxAttempts : Option ℤ)
  | recoveryCreated (k : ℕ) (answer : Response)
  | recoveryConfirmed (k : ℕ) (answer : Response)
  | recoveryWoken (k : ℕ)
  | resumed (c : ℕ) (generated : RequestId)

/-- A step of a page, on the page and the storage. -/
def Page.step (page : Page) (storage : Storage) : PageOp → Page × Storage
  | .createIds generated =>
      let (ids, storage) := createCampaignRequestIds generated storage
      ({ page with ids := page.ids ++ [ids] }, storage)
  | .prepare i draft => page.prepare storage i draft
  | .submit i draft => page.submitEvalCampaign storage i draft
  | .created c answer generated => page.created storage c answer generated
  | .confirmed c answer generated => page.confirmed storage c answer generated
  | .recover i maxAttempts => (page.recoverPendingEvalCampaign i maxAttempts, storage)
  | .recoveryCreated k answer => (page.moveRecovery k (Recovery.created · answer), storage)
  | .recoveryConfirmed k answer => (page.moveRecovery k (Recovery.confirmed · answer), storage)
  | .recoveryWoken k => (page.moveRecovery k Recovery.woken, storage)
  | .resumed c generated => page.resumed storage c generated

/-- Pages that share one storage. -/
structure Browser where
  storage : Storage
  pages : List Page
deriving DecidableEq

/-- A page is opened, one is reloaded, or one takes a step. -/
inductive BrowserOp where
  | newPage
  | reload (p : ℕ)
  | page (p : ℕ) (op : PageOp)

namespace Browser

/-- Before any page is opened. -/
def closed (storage : Storage) : Browser where
  storage
  pages := []

/-- One step.  What a page held in memory does not survive its reload. -/
def step (op : BrowserOp) (b : Browser) : Browser :=
  match op with
  | .newPage => { b with pages := b.pages ++ [{}] }
  | .reload p => { b with pages := b.pages.set p {} }
  | .page p op =>
      match b.pages[p]? with
      | none => b
      | some page =>
          { storage := (page.step b.storage op).2
            pages := b.pages.set p (page.step b.storage op).1 }

end Browser

end CrazyHarness.Frontend
