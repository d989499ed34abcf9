import CrazyHarness.Runtime.CheckpointService

/-! # Checkpoints that are asked for again

Any number of `create_checkpoint` for one run and one request, calls of `validate_restore` and other
writers share the store, and all may die between two steps.

The identifiers of the facts depend on the request alone, their content on what the caller has read.
As long as no caller requests a checkpoint that another one has requested from other material, all
callers get one contract, no append finds another event under its identifier, and the log begins as
the contract says forever (`captures_agree`). -/

namespace CrazyHarness

open Lib Program RuntimeM CheckpointService

/-! ### The callers and their store -/

/-- The store, what the contract in it was made of, and whether an append of a caller has found
another event under its identifier.  No code reads the last two. -/
structure CaptureWorld where
  store : StoreWorld
  taken : Option Materials := none
  conflicted : Bool := false

namespace CaptureWorld

/-- The events of the store. -/
def log (w : CaptureWorld) : List Event := w.store.db.events.rows

/-- Another event has this identifier. -/
def Clashes (w : CaptureWorld) (e : Event) : Prop :=
  ∃ f ∈ w.log, f.id = e.id ∧ ¬ f.SameFact e

instance (w : CaptureWorld) (e : Event) : Decidable (w.Clashes e) :=
  inferInstanceAs (Decidable (∃ f ∈ w.log, _))

/-- The world after an append of a caller. -/
def appended (w : CaptureWorld) (e : Event) (s : StoreWorld) : CaptureWorld :=
  { w with store := s, conflicted := w.conflicted || decide (w.Clashes e) }

/-- The world after an append of `checkpoint.requested`. -/
def requested (w : CaptureWorld) (m : Materials) (e : Event) (s : StoreWorld) : CaptureWorld :=
  { w.appended e s with
    taken := if e ∈ s.db.events.rows ∧ e ∉ w.log then some m else w.taken }

end CaptureWorld

/-- What each step replies and does. -/
def captureStep (w : CaptureWorld) :
    (op : (withStore captureInterface).Op) → (withStore captureInterface).Reply op →
      CaptureWorld → Prop
  | .inl (.append dispatch e), r, w' => ∃ s, storeStep w.store (.append dispatch e) r s ∧
      w' = w.appended e s
  | .inl op, r, w' => ∃ s, storeStep w.store op r s ∧ w' = { w with store := s }
  | .inr (.request m e), r, w' => ∃ s, storeStep w.store (.append none e) r s ∧
      w' = w.requested m e s
  | .inr (.readRecords runId), r, w' => r = w.store.db.readRecords runId ∧ w' = w
  | .inr (.quiescence _), _, w' | .inr (.createSnapshot _), _, w' | .inr (.verifySnapshot _), _, w'
  | .inr (.readArtifact _), _, w' => w' = w

/-- How a caller ends. -/
inductive CaptureEnd where
  | created (result : Except RuntimeError CheckpointContract)
  | validated (result : Except RuntimeError CheckpointContract)

/-- The identifier of `checkpoint.requested`. -/
abbrev requestedId (checkpointId : String) : String :=
  uuid5 ("crazy:" ++ checkpointId ++ ":requested")

/-- The identifier of `checkpoint.committed`. -/
abbrev committedId (checkpointId : String) : String :=
  uuid5 ("crazy:" ++ checkpointId ++ ":committed")

/-- The checkpoint of a run and a request. -/
abbrev captureId (runId : String) (request : CheckpointCreateRequest) : String :=
  checkpointId runId request.requestId.1

/-- The event of a committed checkpoint, as all callers write it. -/
abbrev sealEvent (c : CheckpointContract) (t : DateTime) : Event :=
  committedEvent c (some (requestedId c.checkpointId)) t

/-- The identifiers of the facts of a checkpoint. -/
def checkpointEventIds (checkpointId : String) : List String :=
  [requestedId checkpointId, committedId checkpointId]

/-- The event is a fact of another checkpoint, or of none. -/
def Unrelated (checkpointId : String) (e : Event) : Prop :=
  e.id ∉ checkpointEventIds checkpointId ∧ ¬ Requests checkpointId e ∧ ¬ Commits checkpointId e

/-- Other threads and processes write other events; the identifiers they draw for these are new. -/
def OtherWrites (checkpointId : String) (w w' : CaptureWorld) : Prop :=
  ∃ s es, w' = { w with store := s } ∧ w.store.drawn ≤ s.drawn ∧ w.store.db.Wrote es s.db ∧
    ∀ e ∈ es, Unrelated checkpointId e ∧
      ∀ n, e.id = uuid4 n → w.store.drawn ≤ n ∧ n < s.drawn

/-- Callers come and go. -/
inductive CaptureStarts (runId : String) (request : CheckpointCreateRequest) : CaptureWorld →
    Program (withStore captureInterface) CaptureEnd → CaptureWorld → Prop
  | create (w : CaptureWorld) : CaptureStarts runId request w
      (Program.bind (captureCheckpoint runId request) (fun r => .done (.created r))) w
  | validate (w : CaptureWorld) : CaptureStarts runId request w
      (Program.bind (validateRestore (captureId runId request))
        (fun r => .done (.validated r))) w

/-- Any number of callers, among other writers. -/
def captureRules (runId : String) (request : CheckpointCreateRequest) :
    PoolRules (withStore captureInterface) CaptureEnd CaptureWorld where
  step := captureStep
  starts := CaptureStarts runId request
  env := OtherWrites (captureId runId request)

/-- A checkpoint that has been requested is not requested from other material. -/
def OneSource (w : CaptureWorld) : (withStore captureInterface).Op → Prop
  | .inr (.request m _) => ∀ m' ∈ w.taken, m = m'
  | _ => True

/-- The callers, when every step is so. -/
def agreeingRules (runId : String) (request : CheckpointCreateRequest) :
    PoolRules (withStore captureInterface) CaptureEnd CaptureWorld :=
  { captureRules runId request with
    step := fun w op r w' => captureStep w op r w' ∧ OneSource w op }

/-! ### The invariant -/

/-- The contract that `create` makes of its material. -/
def Makes (runId : String) (request : CheckpointCreateRequest) (m : Materials)
    (c : CheckpointContract) : Prop :=
  ∃ runCreated, runCreatedOf (m.records.map Prod.snd) = some runCreated ∧
    buildContract (captureId runId request) request (requestFingerprint runId request) m
      runCreated = .ok c

/-- The contract of the checkpoint, if there is one. -/
def CaptureWorld.Agreed (runId : String) (request : CheckpointCreateRequest) (w : CaptureWorld)
    (c : CheckpointContract) : Prop :=
  ∃ m ∈ w.taken, Makes runId request m c

/-- The facts of the checkpoint are those of its contract, and the log begins with the records it
was made of.  A thread owns the identifier of an event that it is about to append. -/
structure Agreeing (runId : String) (request : CheckpointCreateRequest) (w : CaptureWorld)
    (owned : ℕ → ℕ) : Prop where
  quiet : w.conflicted = false
  replayed : w.store.db.Replayed
  drawn : ∀ e ∈ w.log, ∀ n, e.id = uuid4 n → n < w.store.drawn ∧ owned n = 0
  once : ∀ n, owned n ≤ 1 ∧ (0 < owned n → n < w.store.drawn)
  requested : ∀ e ∈ w.log, e.id = requestedId (captureId runId request) ∨
    Requests (captureId runId request) e →
      ∃ c t, w.Agreed runId request c ∧ e = requestedEvent c t
  committed : ∀ e ∈ w.log, e.id = committedId (captureId runId request) ∨
    Commits (captureId runId request) e →
      ∃ c t, w.Agreed runId request c ∧
        e = sealEvent c t
  taken : ∀ m ∈ w.taken, m.records <+: w.store.db.readRecords runId ∧
    ∃ c t, Makes runId request m c ∧ requestedEvent c t ∈ w.log

/-- What others do to a caller. -/
structure CaptureWorld.Grows (w w' : CaptureWorld) : Prop where
  log : w.log ⊆ w'.log
  taken : ∀ m ∈ w.taken, m ∈ w'.taken
  records : ∀ runId, w.store.db.readRecords runId <+: w'.store.db.readRecords runId

section invariant

variable {runId : String} {request : CheckpointCreateRequest} {w w' w'' : CaptureWorld}
  {owned : ℕ → ℕ} {m m' : Materials} {c c' : CheckpointContract} {e : Event} {db : Database}
  {s : StoreWorld}

theorem Makes.unique (h : Makes runId request m c) (h' : Makes runId request m c') : c = c' := by
  obtain ⟨created, hcreated, hbuild⟩ := h
  obtain ⟨created', hcreated', hbuild'⟩ := h'
  rw [hcreated] at hcreated'
  obtain rfl := Option.some.inj hcreated'
  rw [hbuild] at hbuild'
  exact Except.ok.inj hbuild'

theorem Makes.spec (h : Makes runId request m c) :
    c.checkpointId = captureId runId request ∧
      c.requestFingerprint = requestFingerprint runId request ∧
        ∃ last, m.records.getLast? = some last ∧ EndsAt c.source m.records last := by
  obtain ⟨created, -, hbuild⟩ := h
  exact buildContract_spec hbuild

theorem CaptureWorld.Agreed.unique (h : w.Agreed runId request c) (h' : w.Agreed runId request c') :
    c = c' := by
  obtain ⟨m, hm, hmakes⟩ := h
  obtain ⟨m', hm', hmakes'⟩ := h'
  obtain rfl := Option.mem_unique hm hm'
  exact hmakes.unique hmakes'

theorem CaptureWorld.Agreed.spec (h : w.Agreed runId request c) :
    c.checkpointId = captureId runId request ∧
      c.requestFingerprint = requestFingerprint runId request := by
  obtain ⟨m, -, hmakes⟩ := h
  exact ⟨hmakes.spec.1, hmakes.spec.2.1⟩

theorem CaptureWorld.Agreed.grows (h : w.Agreed runId request c) (hg : w.Grows w') :
    w'.Agreed runId request c := by
  obtain ⟨m, hm, hmakes⟩ := h
  exact ⟨m, hg.taken m hm, hmakes⟩

theorem CaptureWorld.Grows.refl (w : CaptureWorld) : w.Grows w :=
  ⟨List.Subset.refl _, fun _ h => h, fun _ => List.prefix_refl _⟩

theorem CaptureWorld.Grows.trans (h : w.Grows w') (h' : w'.Grows w'') : w.Grows w'' :=
  ⟨List.Subset.trans h.log h'.log, fun m hm => h'.taken m (h.taken m hm),
    fun runId => (h.records runId).trans (h'.records runId)⟩

/-! ### What is written -/

theorem records_prefix_newEvent (h : w.store.db.Replayed) (he : w.store.db.NewEvent e db)
    (runId : String) : w.store.db.readRecords runId <+: db.readRecords runId := by
  rw [Database.readRecords, Database.readRecords, h.records_newEvent he, List.filter_append]
  exact List.prefix_append _ _

theorem records_sameLog (hs : w.store.db.SameLog db) (runId : String) :
    db.readRecords runId = w.store.db.readRecords runId := by
  rw [Database.readRecords, Database.readRecords, Database.records, Database.records, hs.events,
    hs.seqOf]

theorem grows_sameLog {n : ℕ} (hs : w.store.db.SameLog db) :
    w.Grows { w with store := ⟨db, n⟩ } := by
  refine ⟨?_, fun _ h => h, fun runId => ?_⟩
  · show w.store.db.events.rows ⊆ db.events.rows
    rw [hs.events]
    exact List.Subset.refl _
  · show w.store.db.readRecords runId <+: db.readRecords runId
    rw [records_sameLog hs]

theorem grows_newEvent {n : ℕ} (h : w.store.db.Replayed) (he : w.store.db.NewEvent e db) :
    w.Grows { w with store := ⟨db, n⟩ } := by
  refine ⟨?_, fun _ h => h, fun runId => records_prefix_newEvent h he runId⟩
  show w.store.db.events.rows ⊆ db.events.rows
  rw [he.rows]
  exact List.subset_append_left _ _

theorem Agreeing.drop {m : ℕ → ℕ} (h : Agreeing runId request w (m + owned)) :
    Agreeing runId request w owned where
  quiet := h.quiet
  replayed := h.replayed
  drawn := by
    intro e he n hn
    obtain ⟨hlt, hzero⟩ := h.drawn e he n hn
    rw [Pi.add_apply] at hzero
    exact ⟨hlt, by omega⟩
  once := by
    intro n
    have := h.once n
    rw [Pi.add_apply] at this
    omega
  requested := h.requested
  committed := h.committed
  taken := h.taken

/-- Drawing identifiers. -/
theorem Agreeing.draw (h : Agreeing runId request w owned) {n : ℕ} (hn : w.store.drawn ≤ n) :
    Agreeing runId request { w with store := { w.store with drawn := n } } owned where
  quiet := h.quiet
  replayed := h.replayed
  drawn := fun e he k hk => ⟨lt_of_lt_of_le (h.drawn e he k hk).1 hn, (h.drawn e he k hk).2⟩
  once := fun k => ⟨(h.once k).1, fun hpos => lt_of_lt_of_le ((h.once k).2 hpos) hn⟩
  requested := h.requested
  committed := h.committed
  taken := h.taken

/-- The identifier just drawn is nobody's. -/
theorem Agreeing.own (h : Agreeing runId request w owned) :
    Agreeing runId request { w with store := { w.store with drawn := w.store.drawn + 1 } }
      (Pi.single w.store.drawn 1 + owned) := by
  have hbase := h.draw (Nat.le_succ w.store.drawn)
  have hzero : owned w.store.drawn = 0 := by
    obtain ⟨-, hlt⟩ := h.once w.store.drawn
    by_contra hne
    have := hlt (by omega)
    omega
  refine { hbase with drawn := ?_, once := ?_ }
  · intro e he n hn
    obtain ⟨hlt, hfree⟩ := h.drawn e he n hn
    refine ⟨Nat.lt_succ_of_lt hlt, ?_⟩
    rw [Pi.add_apply, Pi.single_eq_of_ne (by omega), hfree]
  · intro n
    by_cases hn : n = w.store.drawn
    · subst hn
      rw [Pi.add_apply, Pi.single_eq_same, hzero]
      exact ⟨le_rfl, fun _ => Nat.lt_succ_self _⟩
    · rw [Pi.add_apply, Pi.single_eq_of_ne hn, zero_add]
      exact hbase.once n

theorem Agreeing.sameLog (h : Agreeing runId request w owned) (hs : w.store.db.SameLog db) :
    Agreeing runId request { w with store := { w.store with db := db } } owned := by
  have hlog : ({ w with store := { w.store with db := db } } : CaptureWorld).log = w.log := by
    show db.events.rows = w.store.db.events.rows
    rw [hs.events]
  refine
    { quiet := h.quiet
      replayed := h.replayed.sameLog hs
      drawn := ?_
      once := h.once
      requested := ?_
      committed := ?_
      taken := ?_ }
  · rw [hlog]
    exact h.drawn
  · rw [hlog]
    exact h.requested
  · rw [hlog]
    exact h.committed
  · intro m hm
    rw [hlog]
    show m.records <+: db.readRecords runId ∧ _
    rw [records_sameLog hs]
    exact h.taken m hm

/-- A new event: what it says of the checkpoint must be what the contract says. -/
theorem Agreeing.newEvent (h : Agreeing runId request w owned) (he : w.store.db.NewEvent e db)
    (hdrawn : ∀ n, e.id = uuid4 n → n < w.store.drawn ∧ owned n = 0)
    (hrequested : e.id = requestedId (captureId runId request) ∨
      Requests (captureId runId request) e →
        ∃ c t, w.Agreed runId request c ∧ e = requestedEvent c t)
    (hcommitted : e.id = committedId (captureId runId request) ∨
      Commits (captureId runId request) e →
        ∃ c t, w.Agreed runId request c ∧ e = sealEvent c t) :
    Agreeing runId request { w with store := { w.store with db := db } } owned := by
  have hrows : ∀ f ∈ db.events.rows, f ∈ w.log ∨ f = e := by
    intro f hf
    rw [he.rows, List.mem_append, List.mem_singleton] at hf
    exact hf
  refine
    { quiet := h.quiet
      replayed := h.replayed.newEvent he
      drawn := ?_
      once := h.once
      requested := ?_
      committed := ?_
      taken := ?_ }
  · intro f hf
    rcases hrows f hf with hf | rfl
    · exact h.drawn f hf
    · exact hdrawn
  · intro f hf
    rcases hrows f hf with hf | rfl
    · exact h.requested f hf
    · exact hrequested
  · intro f hf
    rcases hrows f hf with hf | rfl
    · exact h.committed f hf
    · exact hcommitted
  · intro m hm
    obtain ⟨hfront, c, t, hmakes, hmem⟩ := h.taken m hm
    refine ⟨hfront.trans (records_prefix_newEvent h.replayed he runId), c, t, hmakes, ?_⟩
    exact (grows_newEvent h.replayed he).log hmem

/-- What others write. -/
theorem Agreeing.others (h : Agreeing runId request w owned)
    (hw : OtherWrites (captureId runId request) w w') :
    Agreeing runId request w' owned ∧ w.Grows w' := by
  obtain ⟨s, es, rfl, hdrawn, hwrote, hes⟩ := hw
  have hbase := h.draw hdrawn
  have hboth : Agreeing runId request { w with store := ⟨s.db, s.drawn⟩ } owned ∧
      w.Grows { w with store := ⟨s.db, s.drawn⟩ } := by
    refine @Database.Wrote.preserves w.store.db s.db es
      (fun db => Agreeing runId request { w with store := ⟨db, s.drawn⟩ } owned ∧
        w.Grows { w with store := ⟨db, s.drawn⟩ }) hwrote ?_ ?_
      ⟨hbase, List.Subset.refl _, fun _ hm => hm, fun _ => List.prefix_refl _⟩
    · intro db db' hs hinv
      exact ⟨hinv.1.sameLog hs,
        hinv.2.trans (@grows_sameLog { w with store := ⟨db, s.drawn⟩ } db' s.drawn hs)⟩
    · intro db e db' he hmem hinv
      obtain ⟨⟨hid, hrequests, hcommits⟩, hfresh⟩ := hes e hmem
      simp only [checkpointEventIds, List.mem_cons, List.not_mem_nil, or_false, not_or] at hid
      refine ⟨hinv.1.newEvent he ?_ ?_ ?_, hinv.2.trans
        (@grows_newEvent { w with store := ⟨db, s.drawn⟩ } e db' s.drawn hinv.1.replayed he)⟩
      · intro n hn
        obtain ⟨hle, hlt⟩ := hfresh n hn
        refine ⟨hlt, ?_⟩
        by_contra hne
        have := (h.once n).2 (by omega)
        omega
      · rintro (heq | heq)
        · exact absurd heq hid.1
        · exact absurd heq hrequests
      · rintro (heq | heq)
        · exact absurd heq hid.2
        · exact absurd heq hcommits
  exact hboth

/-- An append raised, found its fact in the log, or wrote a new event. -/
theorem appended_cases {dispatch : Option DispatchContext} {r : Except StoreError Event}
    (hstep : storeStep w.store (.append dispatch e) r s) :
    s = w.store ∧ (∃ err, r = .error err) ∨ ∃ db, s = { w.store with db := db } ∧
      ((∃ f ∈ w.log, r = .ok f ∧ f.SameFact e ∧ w.store.db.SameLog db) ∨
        r = .ok e ∧ w.store.db.NewEvent e db) := by
  obtain ⟨d, now, -, -, hout⟩ := hstep
  rcases StoreWorld.returns_cases hout with ⟨err, -, rfl, rfl⟩ | ⟨stored, db, happend, rfl, rfl⟩
  · exact .inl ⟨rfl, err, rfl⟩
  · refine .inr ⟨db, rfl, ?_⟩
    rcases Database.append_cases happend with ⟨rfl, hlook, hsame⟩ | ⟨rfl, hnew⟩
    · exact .inl ⟨stored, Table.mem_of_lookup hlook, rfl, hsame, Database.sameLog_skipSeq _⟩
    · exact .inr ⟨rfl, hnew⟩

theorem CaptureWorld.appended_quiet (hquiet : w.conflicted = false) (hclash : ¬ w.Clashes e) :
    w.appended e s = { w with store := s } := by
  unfold CaptureWorld.appended
  rw [hquiet, decide_eq_false hclash]
  rfl

/-- An append of a caller that clashes with nothing. -/
theorem Agreeing.appended {dispatch : Option DispatchContext} {r : Except StoreError Event}
    (h : Agreeing runId request w owned) (hclash : ¬ w.Clashes e)
    (hstep : storeStep w.store (.append dispatch e) r s)
    (hdrawn : ∀ n, e.id = uuid4 n → n < w.store.drawn ∧ owned n = 0)
    (hrequested : e.id = requestedId (captureId runId request) ∨
      Requests (captureId runId request) e → ∃ c t, w.Agreed runId request c ∧ e = requestedEvent c t)
    (hcommitted : e.id = committedId (captureId runId request) ∨
      Commits (captureId runId request) e → ∃ c t, w.Agreed runId request c ∧ e = sealEvent c t) :
    Agreeing runId request (w.appended e s) owned ∧ w.Grows (w.appended e s) := by
  rw [CaptureWorld.appended_quiet h.quiet hclash]
  rcases appended_cases hstep with ⟨rfl, -⟩ | ⟨db, rfl, ⟨f, -, -, -, hs⟩ | ⟨-, hnew⟩⟩
  · exact ⟨h, .refl w⟩
  · exact ⟨h.sameLog hs, grows_sameLog hs⟩
  · exact ⟨h.newEvent hnew hdrawn hrequested hcommitted, grows_newEvent h.replayed hnew⟩

theorem uuid5_ne_uuid4 {name : String} {n : ℕ} : uuid5 name ≠ uuid4 n := by
  intro h
  have hfirst := congrArg (fun s => s.toList.take 5) h
  simp [uuid5, uuid4] at hfirst

theorem requestedId_ne_committedId {cid : String} : requestedId cid ≠ committedId cid := by
  intro h
  have hname := uuid5_injective h
  simp at hname

/-- The request is in the log once there is a contract. -/
theorem Agreeing.mem_requested (h : Agreeing runId request w owned) (ha : w.Agreed runId request c) :
    ∃ t, requestedEvent c t ∈ w.log := by
  obtain ⟨m, hm, hmakes⟩ := ha
  obtain ⟨-, c', t, hmakes', hmem⟩ := h.taken m hm
  obtain rfl := hmakes'.unique hmakes
  exact ⟨t, hmem⟩

/-- What the service finds as its request. -/
theorem Agreeing.requestedIn (h : Agreeing runId request w owned)
    (hfound : requestedIn w.log (captureId runId request) = some e) :
    ∃ c t, w.Agreed runId request c ∧ e = requestedEvent c t := by
  obtain ⟨hmem, hreq⟩ := requestedIn_eq_some hfound
  exact h.requested e hmem (.inr hreq)

/-- Whatever the caller knows of the request, its identifier is the cause of the commit. -/
theorem Agreeing.cause_eq (h : Agreeing runId request w owned) (ha : w.Agreed runId request c) :
    (CheckpointService.requestedIn w.log (captureId runId request)).map Event.id =
      some (requestedId (captureId runId request)) := by
  obtain ⟨t, hmem⟩ := h.mem_requested ha
  cases hfound : CheckpointService.requestedIn w.log (captureId runId request) with
  | none =>
      have hnone := List.filter_eq_nil_iff.mp (List.getLast?_eq_none_iff.mp hfound) _ hmem
      exact absurd (decide_eq_true (requests_requestedEvent.mpr ha.spec.1)) hnone
  | some e =>
      obtain ⟨c', t', ha', rfl⟩ := h.requestedIn hfound
      obtain rfl := ha.unique ha'
      show some (requestedId c.checkpointId) = _
      rw [ha.spec.1]

/-- The commit of the contract clashes with nothing. -/
theorem Agreeing.commit (h : Agreeing runId request w owned) (ha : w.Agreed runId request c)
    {dispatch : Option DispatchContext} {r : Except StoreError Event} {t : DateTime}
    (hstep : storeStep w.store (.append dispatch (sealEvent c t)) r s) :
    Agreeing runId request (w.appended (sealEvent c t) s) owned ∧
      w.Grows (w.appended (sealEvent c t) s) := by
  have hid : (sealEvent c t).id = committedId (captureId runId request) := by
    show committedId c.checkpointId = _
    rw [ha.spec.1]
  refine h.appended ?_ hstep ?_ ?_ ?_
  · rintro ⟨f, hf, hsame, hne⟩
    obtain ⟨c', t', ha', rfl⟩ := h.committed f hf (.inl (hsame.trans hid))
    obtain rfl := ha.unique ha'
    exact hne rfl
  · intro n hn
    exact absurd hn uuid5_ne_uuid4
  · rintro (heq | heq)
    · rw [hid] at heq
      exact absurd heq.symm requestedId_ne_committedId
    · have htype := heq.1
      simp [committedEvent] at htype
  · intro _
    exact ⟨c, t, ha, rfl⟩

/-- The request of a contract that is made of what it is to be made of. -/
theorem Agreeing.takes (h : Agreeing runId request w owned) (hmakes : Makes runId request m c)
    (hfront : m.records <+: w.store.db.readRecords runId) (hsource : ∀ m' ∈ w.taken, m = m')
    {r : Except StoreError Event} {t : DateTime}
    (hstep : storeStep w.store (.append none (requestedEvent c t)) r s) :
    Agreeing runId request (w.requested m (requestedEvent c t) s) owned ∧
      w.Grows (w.requested m (requestedEvent c t) s) ∧ ∀ stored, r = .ok stored →
        (w.requested m (requestedEvent c t) s).Agreed runId request c ∧
          stored.id = requestedId (captureId runId request) := by
  have hid : (requestedEvent c t).id = requestedId (captureId runId request) := by
    show requestedId c.checkpointId = _
    rw [hmakes.spec.1]
  -- an event under this identifier is the request of the same contract
  have hsame : ∀ f ∈ w.log, f.id = (requestedEvent c t).id →
      w.Agreed runId request c ∧ f.SameFact (requestedEvent c t) := by
    intro f hf heq
    obtain ⟨c', t', ha', rfl⟩ := h.requested f hf (.inl (heq.trans hid))
    obtain ⟨m', hm', hmakes'⟩ := ha'
    obtain rfl := hsource m' hm'
    obtain rfl := hmakes.unique hmakes'
    exact ⟨⟨m, hm', hmakes⟩, rfl⟩
  have hclash : ¬ w.Clashes (requestedEvent c t) := by
    rintro ⟨f, hf, heq, hne⟩
    exact hne (hsame f hf heq).2
  unfold CaptureWorld.requested
  rw [CaptureWorld.appended_quiet h.quiet hclash]
  rcases appended_cases hstep with ⟨rfl, err, rfl⟩ | ⟨db, rfl, ⟨f, hf, rfl, hfact, hs⟩ | ⟨rfl, hnew⟩⟩
  · rw [if_neg (fun hboth => hboth.2 hboth.1)]
    exact ⟨h, .refl w, fun stored hstored => by cases hstored⟩
  · have hnone : ¬ (requestedEvent c t ∈ db.events.rows ∧ requestedEvent c t ∉ w.log) := by
      rw [hs.events]
      exact fun hboth => hboth.2 hboth.1
    rw [if_neg hnone]
    have hfid : f.id = (requestedEvent c t).id := by
      rw [← hfact]
    refine ⟨h.sameLog hs, grows_sameLog hs, ?_⟩
    rintro stored hstored
    obtain rfl := Except.ok.inj hstored
    exact ⟨(hsame f hf hfid).1.grows (grows_sameLog hs), hfid.trans hid⟩
  · have hfresh : requestedEvent c t ∉ w.log := by
      intro hmem
      exact Table.lookup_eq_none_iff.mp hnew.fresh _ hmem rfl
    have hmem : requestedEvent c t ∈ db.events.rows := by
      rw [hnew.rows]
      exact List.mem_append_right _ (List.mem_singleton_self _)
    rw [if_pos ⟨hmem, hfresh⟩]
    -- nothing has been taken before, as the request would be in the log
    have hnone : w.taken = none := by
      cases htaken : w.taken with
      | none => rfl
      | some m' =>
          obtain rfl := hsource m' htaken
          obtain ⟨t', hmem'⟩ := h.mem_requested ⟨m, htaken, hmakes⟩
          exact absurd (show (requestedEvent c t').id = (requestedEvent c t).id from rfl)
            (Table.lookup_eq_none_iff.mp hnew.fresh _ hmem')
    have hgrow := grows_newEvent h.replayed hnew (n := w.store.drawn)
    have hrows : ∀ f ∈ db.events.rows, f ∈ w.log ∨ f = requestedEvent c t := by
      intro f hf
      rw [hnew.rows, List.mem_append, List.mem_singleton] at hf
      exact hf
    have hnothing : ∀ c', ¬ w.Agreed runId request c' := by
      rintro c' ⟨m', hm', -⟩
      rw [hnone] at hm'
      cases hm'
    refine ⟨?_, ⟨hgrow.log, ?_, hgrow.records⟩, ?_⟩
    · refine
        { quiet := h.quiet
          replayed := h.replayed.newEvent hnew
          drawn := ?_
          once := h.once
          requested := ?_
          committed := ?_
          taken := ?_ }
      · intro f hf n hn
        rcases hrows f hf with hf | rfl
        · exact h.drawn f hf n hn
        · exact absurd hn uuid5_ne_uuid4
      · intro f hf hreq
        rcases hrows f hf with hf | rfl
        · obtain ⟨c', -, ha', -⟩ := h.requested f hf hreq
          exact absurd ha' (hnothing c')
        · exact ⟨c, t, ⟨m, rfl, hmakes⟩, rfl⟩
      · intro f hf hcom
        rcases hrows f hf with hf | rfl
        · obtain ⟨c', -, ha', -⟩ := h.committed f hf hcom
          exact absurd ha' (hnothing c')
        · rcases hcom with heq | heq
          · rw [hid] at heq
            exact absurd heq requestedId_ne_committedId
          · have htype := heq.1
            simp [requestedEvent] at htype
      · intro m' hm'
        obtain rfl := Option.some.inj hm'
        exact ⟨hfront.trans (hgrow.records runId), c, t, hmakes, hmem⟩
    · intro m' hm'
      rw [hnone] at hm'
      cases hm'
    · rintro stored hstored
      obtain rfl := Except.ok.inj hstored
      exact ⟨⟨m, rfl, hmakes⟩, hid⟩

/-- A barrier of one's own. -/
theorem Agreeing.barrier {n : ℕ} (h : Agreeing runId request w (Pi.single n 1 + owned))
    (hid : e.id = uuid4 n) (htype : e.type ∈ barrierTypes)
    {dispatch : Option DispatchContext} {r : Except StoreError Event}
    (hstep : storeStep w.store (.append dispatch e) r s) :
    Agreeing runId request (w.appended e s) owned ∧ w.Grows (w.appended e s) := by
  have hone := h.once n
  rw [Pi.add_apply, Pi.single_eq_same] at hone
  refine h.drop.appended ?_ hstep ?_ ?_ ?_
  · rintro ⟨f, hf, hsame, -⟩
    have hzero := (h.drawn f hf n (hsame.trans hid)).2
    rw [Pi.add_apply, Pi.single_eq_same] at hzero
    omega
  · intro k hk
    obtain rfl : n = k := by
      rw [hid] at hk
      simpa [uuid4] using hk
    exact ⟨hone.2 (by omega), by omega⟩
  · rintro (heq | heq)
    · rw [hid] at heq
      exact absurd heq.symm uuid5_ne_uuid4
    · rw [heq.1] at htype
      simp [barrierTypes] at htype
  · rintro (heq | heq)
    · rw [hid] at heq
      exact absurd heq.symm uuid5_ne_uuid4
    · rw [heq.1] at htype
      simp [barrierTypes] at htype

end invariant

/-! ### Every caller keeps it -/

/-- The code keeps the invariant among others, and what it returns meets `post`. -/
def Captures {α : Type} (runId : String) (request : CheckpointCreateRequest)
    (post : α → CaptureWorld → Prop) (p : Capture α) (w : CaptureWorld) : Prop :=
  Safe (agreeingRules runId request).step (Agreeing runId request) CaptureWorld.Grows
    CaptureWorld.Grows (fun r w m => m = 0 ∧ ∀ a, r = .ok a → post a w) p w 0

section callers

variable {α β : Type} {runId : String} {request : CheckpointCreateRequest} {w : CaptureWorld}
  {m : Materials} {c : CheckpointContract} {post : α → CaptureWorld → Prop}

theorem captures_pure {a : α} (h : post a w) : Captures runId request post (pure a) w := by
  refine ⟨rfl, ?_⟩
  intro b hb
  obtain rfl := Except.ok.inj hb
  exact h

theorem captures_throw (e : RuntimeError) : Captures runId request post (throw e) w :=
  ⟨rfl, fun _ h => by cases h⟩

theorem captures_bind {Q : β → CaptureWorld → Prop} {p : Capture β} {f : β → Capture α}
    (h : Captures runId request Q p w)
    (hf : ∀ b w, Q b w → Captures runId request post (f b) w) :
    Captures runId request post (p >>= f) w := by
  refine @safe_bind _ _ _ _ _ _ _ _ _ _ _ _ _ _ (fun b w m => m = 0 ∧ Q b w) _ (h.weaken ?_) ?_
  · rintro r w m ⟨rfl, hr⟩
    cases r with
    | ok b => exact ⟨rfl, hr b rfl⟩
    | error e => exact ⟨rfl, fun _ h => by cases h⟩
  · rintro b w m ⟨rfl, hb⟩
    exact hf b w hb

/-- A step outside of the store that leaves the world alone. -/
theorem captures_quiet {op : CaptureOp} {next : captureInterface.Reply op → Except RuntimeError α}
    (hstep : ∀ w r w', captureStep w (.inr op) r w' → w' = w)
    (hpost : ∀ r w' a, w.Grows w' → next r = .ok a → post a w') :
    Captures runId request post
      (@Program.request (withStore captureInterface) _ (.inr op) (fun r => .done (next r))) w := by
  rintro w₁ R r w₂ hrely hinv ⟨hdoes, -⟩
  obtain rfl := hstep _ _ _ hdoes
  exact ⟨0, hinv, .refl _, rfl, fun a ha => hpost r _ a hrely ha⟩

theorem captures_raise {r : Except RuntimeError α} (hpost : ∀ a, r = .ok a → post a w) :
    Captures runId request post (orRaise r) w := ⟨rfl, fun a ha => hpost a ha⟩

theorem captures_now {post : DateTime → CaptureWorld → Prop}
    (hpost : ∀ t w', w.Grows w' → post t w') :
    Captures runId request post (now : Capture DateTime) w := by
  rintro w₁ R t w₂ hrely hinv ⟨⟨s, ⟨-, rfl⟩, rfl⟩, -⟩
  refine ⟨0, hinv, .refl _, rfl, ?_⟩
  rintro a ha
  obtain rfl := Except.ok.inj ha
  exact hpost _ _ hrely

/-- A read of the whole log. -/
theorem captures_readAll {post : List Event → CaptureWorld → Prop}
    (hpost : ∀ w' owned, w.Grows w' → Agreeing runId request w' owned → post w'.log w') :
    Captures runId request post (readAll none : Capture (List Event)) w := by
  rintro w₁ R log w₂ hrely hinv ⟨⟨s, ⟨rfl, rfl⟩, rfl⟩, -⟩
  refine ⟨0, hinv, .refl _, rfl, ?_⟩
  rintro a ha
  obtain rfl := Except.ok.inj ha
  exact hpost _ _ hrely hinv

/-- A read of the records of a run. -/
theorem captures_readRecords {id : String} {post : List EventRecord → CaptureWorld → Prop}
    (hpost : ∀ w' owned, w.Grows w' → Agreeing runId request w' owned →
      post (w'.store.db.readRecords id) w') :
    Captures runId request post (readRecords id) w := by
  rintro w₁ R records w₂ hrely hinv ⟨⟨rfl, rfl⟩, -⟩
  refine ⟨0, hinv, .refl _, rfl, ?_⟩
  rintro a ha
  obtain rfl := Except.ok.inj ha
  exact hpost _ _ hrely hinv

theorem captures_each {inv : CaptureWorld → Prop} {body : β → Capture Unit}
    (hbody : ∀ b w, inv w → Captures runId request (fun _ => inv) (body b) w) (xs : List β)
    (h : inv w) : Captures runId request (fun _ => inv) (each body xs) w := by
  induction xs generalizing w with
  | nil => exact captures_pure h
  | cons x xs ih => exact captures_bind (hbody x w h) (fun _ w hw => ih hw)

/-- What others cannot take back. -/
def Kept (φ : CaptureWorld → Prop) : Prop := ∀ w w' : CaptureWorld, w.Grows w' → φ w → φ w'

theorem kept_agreed : Kept (fun w => w.Agreed runId request c) := fun _ _ hg h => h.grows hg

theorem captures_verifyArtifact {φ : CaptureWorld → Prop} (hφ : Kept φ) (a : VerifiedArtifactRef)
    (h : φ w) : Captures runId request (fun _ => φ) (verifyArtifact a) w := by
  refine captures_bind (Q := fun _ => φ) (captures_quiet (fun _ _ _ h => h) ?_) ?_
  · intro r w' file hg _
    exact hφ _ _ hg h
  · intro file w hw
    split
    · exact captures_pure hw
    · exact captures_throw _

theorem captures_verifyContents {φ : CaptureWorld → Prop} (hφ : Kept φ) (h : φ w) :
    Captures runId request (fun _ => φ) (verifyContents c) w := by
  refine captures_bind (Q := fun _ => φ) (captures_quiet (fun _ _ _ h => h) ?_) ?_
  · intro r w' _ hg _
    exact hφ _ _ hg h
  · intro _ w hw
    exact captures_each (fun a w hw => captures_verifyArtifact hφ a hw) _ hw

theorem captures_artifactRefs {φ : CaptureWorld → Prop} (hφ : Kept φ) (events : List Event) (h : φ w) :
    Captures runId request (fun _ => φ) (artifactRefs events) w := by
  unfold artifactRefs
  generalize events.flatMap _ = refs
  generalize ([] : List VerifiedArtifactRef) = found
  induction refs generalizing w found with
  | nil => exact captures_pure h
  | cons ref refs ih =>
      obtain ⟨e, raw⟩ := ref
      refine captures_bind (Q := fun _ => φ) ?_ (fun _ w hw => ih hw _)
      refine captures_bind (Q := fun _ => φ) (captures_raise fun _ _ => h) ?_
      rintro ⟨uri, kind, summary⟩ w hw
      refine captures_bind (Q := fun _ => φ) (captures_quiet (fun _ _ _ h => h) ?_) ?_
      · intro r w' _ hg _
        exact hφ _ _ hg hw
      · intro file w hw
        refine captures_bind (Q := fun _ => φ) (captures_raise fun _ _ => hw) ?_
        intro artifactId w hw
        refine captures_bind (Q := fun _ => φ) (captures_raise fun _ _ => hw) ?_
        intro kind w hw
        refine captures_bind (Q := fun _ => φ) (captures_raise fun _ _ => hw) ?_
        intro sourceEventId w hw
        exact captures_pure hw

/-- The commit of an agreed contract. -/
theorem captures_commit {cause : Option String}
    (hcause : cause = none ∨ cause = some (requestedId (captureId runId request)))
    (h : w.Agreed runId request c) :
    Captures runId request (fun _ w => w.Agreed runId request c) (commit c cause) w := by
  refine captures_bind (captures_verifyContents kept_agreed h) ?_
  intro _ w h
  refine captures_bind (Q := fun log w => w.Agreed runId request c ∧
    cause.or ((requestedIn log c.checkpointId).map Event.id) =
      some (requestedId c.checkpointId)) (captures_readAll ?_) ?_
  · intro w' owned hg hinv
    have h' := h.grows hg
    refine ⟨h', ?_⟩
    rw [h'.spec.1]
    rcases hcause with rfl | rfl
    · exact hinv.cause_eq h'
    · rfl
  · rintro log w ⟨h, hid⟩
    refine captures_bind (Q := fun _ w => w.Agreed runId request c)
      (captures_now fun t w' hg => h.grows hg) ?_
    rw [hid]
    intro createdAt w h
    rintro w₁ R r w₂ hrely hinv ⟨⟨s, hstep, rfl⟩, -⟩
    have h₁ := h.grows hrely
    obtain ⟨hinv', hg⟩ := hinv.commit h₁ hstep
    refine ⟨0, hinv', hg, ?_⟩
    cases r with
    | ok stored => exact ⟨rfl, fun _ _ => h₁.grows hg⟩
    | error e => exact ⟨rfl, fun _ hr => by cases hr⟩

/-- A caller that finds the request. -/
theorem captures_resume {t : DateTime} (h : w.Agreed runId request c) :
    Captures runId request (fun c w => w.Agreed runId request c)
      (resumeCreate runId request (requestedEvent c t)) w := by
  refine captures_bind (Q := fun c' w => c' = c ∧ w.Agreed runId request c)
    (captures_raise fun c' hc => ?_) ?_
  · rw [contractIn_requestedEvent] at hc
    exact ⟨(Except.ok.inj hc).symm, h⟩
  · rintro _ w ⟨rfl, h⟩
    split
    · exact captures_bind (captures_commit (.inl rfl) h) (fun _ w h => captures_pure h)
    · exact captures_throw _

/-- The append of the request. -/
theorem captures_appendRequested (hmakes : Makes runId request m c)
    (hfront : m.records <+: w.store.db.readRecords runId) :
    Captures runId request (fun stored w => w.Agreed runId request c ∧
      stored.id = requestedId (captureId runId request)) (appendRequested m c) w := by
  refine captures_bind (Q := fun _ w => m.records <+: w.store.db.readRecords runId)
    (captures_now fun t w' hg => hfront.trans (hg.records runId)) ?_
  intro createdAt w hfront
  rintro w₁ R r w₂ hrely hinv ⟨⟨s, hstep, rfl⟩, hsource⟩
  obtain ⟨hinv', hg, hstored⟩ :=
    hinv.takes hmakes (hfront.trans (hrely.records runId)) hsource hstep
  refine ⟨0, hinv', hg, ?_⟩
  cases r with
  | ok stored =>
      refine ⟨rfl, fun a ha => ?_⟩
      obtain rfl := Except.ok.inj ha
      exact hstored stored rfl
  | error e => exact ⟨rfl, fun _ hr => by cases hr⟩

theorem captures_captureRun {records : List EventRecord} {runCreated : Event}
    (hcreated : runCreatedOf (records.map Prod.snd) = some runCreated)
    (hfront : records <+: w.store.db.readRecords runId) :
    Captures runId request (fun c w => w.Agreed runId request c)
      (captureRun runId request records runCreated) w := by
  have hkept : Kept (fun w => records <+: w.store.db.readRecords runId) :=
    fun _ _ hg h => h.trans (hg.records runId)
  refine captures_bind (Q := fun _ w => records <+: w.store.db.readRecords runId)
    (captures_quiet (fun _ _ _ h => h) fun _ _ _ hg _ => hkept _ _ hg hfront) ?_
  intro snapshot w hfront
  refine captures_bind (captures_artifactRefs hkept _ hfront) ?_
  intro artifacts w hfront
  refine captures_bind (Q := fun _ w => records <+: w.store.db.readRecords runId)
    (captures_now fun t w' hg => hkept _ _ hg hfront) ?_
  intro createdAt w hfront
  refine captures_bind (Q := fun c w => records <+: w.store.db.readRecords runId ∧
    Makes runId request ⟨records, snapshot, artifacts, createdAt⟩ c)
    (captures_raise fun c hc => ⟨hfront, runCreated, hcreated, hc⟩) ?_
  rintro c w ⟨hfront, hmakes⟩
  refine captures_bind (captures_appendRequested hmakes hfront) ?_
  rintro stored w ⟨h, hid⟩
  refine captures_bind (captures_commit (.inr ?_) h) (fun _ w h => captures_pure h)
  rw [hid]

/-- `create` returns the contract that has been agreed on. -/
theorem captures_create (w : CaptureWorld) :
    Captures runId request (fun c w => w.Agreed runId request c) (create runId request) w := by
  refine captures_bind (Q := fun log w => ∀ e, requestedIn log (captureId runId request) = some e →
    ∃ c t, w.Agreed runId request c ∧ e = requestedEvent c t) (captures_readAll ?_) ?_
  · intro w' owned _ hinv e he
    exact hinv.requestedIn he
  · intro log w hfound
    cases hreq : requestedIn log (captureId runId request) with
    | some existing =>
        obtain ⟨c, t, h, rfl⟩ := hfound existing hreq
        exact captures_resume h
    | none =>
        refine captures_bind (Q := fun records w => records <+: w.store.db.readRecords runId)
          (captures_readRecords fun _ _ _ _ => List.prefix_refl _) ?_
        intro records w hfront
        refine captures_bind (Q := fun _ w => records <+: w.store.db.readRecords runId)
          (captures_raise fun _ _ => hfront) ?_
        intro _ w hfront
        cases hcreated : runCreatedOf (records.map Prod.snd) with
        | none => exact captures_throw _
        | some runCreated => exact captures_captureRun hcreated hfront

/-- Drawing an identifier that names no event. -/
theorem captures_uuid {φ : CaptureWorld → Prop} (hφ : Kept φ) (h : φ w) :
    Captures runId request (fun _ => φ) (uuid : Capture String) w := by
  rintro w₁ R id w₂ hrely hinv ⟨⟨s, ⟨rfl, rfl⟩, rfl⟩, -⟩
  have hg : w₁.Grows { w₁ with store := { w₁.store with drawn := w₁.store.drawn + 1 } } :=
    ⟨List.Subset.refl _, fun _ hm => hm, fun _ => List.prefix_refl _⟩
  exact ⟨0, hinv.draw (Nat.le_succ _), hg, rfl, fun _ _ => hφ _ _ hg (hφ _ _ hrely h)⟩

/-- A barrier event under an identifier that is drawn for it. -/
theorem captures_appendDrawn {e : String → DateTime → Event} {φ : CaptureWorld → Prop}
    (hid : ∀ id t, (e id t).id = id) (htype : ∀ id t, (e id t).type ∈ barrierTypes)
    (hφ : Kept φ) (h : φ w) :
    Captures runId request (fun _ => φ) (appendDrawn e : Capture Event) w := by
  refine @safe_bind _ _ _ _ _ _ _ _ _ _ _ _ _ _
    (fun id w m => ∃ n, id = uuid4 n ∧ m = Pi.single n 1 ∧ φ w) _ (safe_call ?_) ?_
  · rintro w₁ R id w₂ hrely hinv ⟨⟨s, ⟨rfl, rfl⟩, rfl⟩, -⟩
    rw [zero_add] at hinv
    have hg : w₁.Grows { w₁ with store := { w₁.store with drawn := w₁.store.drawn + 1 } } :=
      ⟨List.Subset.refl _, fun _ hm => hm, fun _ => List.prefix_refl _⟩
    exact ⟨_, hinv.own, hg, w₁.store.drawn, rfl, rfl, hφ _ _ hg (hφ _ _ hrely h)⟩
  rintro _ w m ⟨n, rfl, rfl, h⟩
  refine @safe_append _ _ _ _ _ _ _ _ _ _ _ _ (fun _ w m => m = Pi.single n 1 ∧ φ w) _ ?_ ?_
  · rintro w₁ R t w₂ hrely hinv ⟨⟨s, ⟨-, rfl⟩, rfl⟩, -⟩
    exact ⟨_, hinv, .refl _, rfl, hφ _ _ hrely h⟩
  · rintro createdAt w m w₁ R r w₂ ⟨rfl, h⟩ hrely hinv ⟨⟨s, hstep, rfl⟩, -⟩
    obtain ⟨hinv', hg⟩ := hinv.barrier (hid _ _) (htype _ _) hstep
    rw [← zero_add R] at hinv'
    exact ⟨0, hinv', hg, rfl, fun _ _ => hφ _ _ hg (hφ _ _ hrely h)⟩

theorem captures_tryFinally {p : Capture α} {q : Capture β} (hp : Captures runId request post p w)
    (hpost : ∀ a, Kept (post a))
    (hq : ∀ φ, Kept φ → ∀ w, φ w → Captures runId request (fun _ => φ) q w) :
    Captures runId request post (tryFinally p q) w := by
  refine safe_tryFinally hp ?_
  rintro r w m ⟨rfl, hr⟩
  have hkept : Kept (fun w => ∀ a, r = .ok a → post a w) :=
    fun _ _ hg h a ha => hpost a _ _ hg (h a ha)
  refine Safe.weaken (hq _ hkept w hr) ?_
  rintro r' w m ⟨rfl, hr'⟩
  cases r' with
  | ok b => exact ⟨rfl, hr' b rfl⟩
  | error e => exact ⟨rfl, fun _ h => by cases h⟩

/-- `create_checkpoint` returns the contract that has been agreed on. -/
theorem captures_captureCheckpoint (w : CaptureWorld) :
    Captures runId request (fun c w => w.Agreed runId request c) (captureCheckpoint runId request) w := by
  have htrue : Kept (fun _ => True) := fun _ _ _ _ => trivial
  refine captures_bind (Q := fun _ _ => True) ?_ ?_
  · rintro w₁ R events w₂ hrely hinv ⟨⟨s, ⟨rfl, rfl⟩, rfl⟩, -⟩
    exact ⟨0, hinv, .refl _, rfl, fun _ _ => trivial⟩
  intro events w _
  cases hidentity : runCreatedOf events with
  | none => exact captures_throw _
  | some identity =>
      refine captures_bind (captures_uuid htrue trivial) ?_
      intro drawn w _
      refine captures_bind (Q := fun _ _ => True) (captures_now fun _ _ _ => trivial) ?_
      intro expiresAt w _
      refine captures_bind (captures_appendDrawn (fun _ _ => rfl)
        (fun _ _ => by simp [barrierTypes, barrierAcquired]) htrue trivial) ?_
      intro acquired w _
      refine captures_tryFinally ?_ (fun c => kept_agreed) ?_
      · refine captures_bind (Q := fun _ _ => True) ?_ (fun _ w _ => captures_create w)
        rintro w₁ R quiescent w₂ hrely hinv ⟨rfl, -⟩
        refine ⟨0, hinv, .refl _, ?_⟩
        cases quiescent with
        | true => exact ⟨rfl, fun _ _ => trivial⟩
        | false => exact ⟨rfl, fun _ _ => trivial⟩
      · intro φ hφ w h
        exact captures_appendDrawn (fun _ _ => rfl)
          (fun _ _ => by simp [barrierTypes, barrierReleased]) hφ h

/-! ### Restores -/

/-- A committed contract is the one agreed on. -/
theorem captures_committedContract (w : CaptureWorld) :
    Captures runId request (fun c w => w.Agreed runId request c)
      (committedContract (captureId runId request)) w := by
  refine captures_bind (Q := fun log w => ∀ e, requestedIn log (captureId runId request) = some e →
    ∃ c t, w.Agreed runId request c ∧ e = requestedEvent c t) (captures_readAll ?_) ?_
  · intro w' owned _ hinv e he
    exact hinv.requestedIn he
  · intro log w hfound
    cases hreq : requestedIn log (captureId runId request) with
    | none => exact captures_throw _
    | some requested =>
        obtain ⟨c, t, h, rfl⟩ := hfound requested hreq
        refine captures_bind (Q := fun c' w => c' = c ∧ w.Agreed runId request c)
          (captures_raise fun c' hc => ?_) ?_
        · rw [contractIn_requestedEvent] at hc
          exact ⟨(Except.ok.inj hc).symm, h⟩
        · rintro c' w ⟨rfl, h⟩
          refine captures_bind (Q := fun _ w => w.Agreed runId request c')
            (captures_readAll fun w' owned hg _ => h.grows hg) ?_
          intro log w h
          cases committedIn log (captureId runId request) with
          | none => exact captures_throw _
          | some committed =>
              dsimp only
              split
              · exact captures_pure h
              · exact captures_throw _

theorem captures_validateRestore (w : CaptureWorld) :
    Captures runId request (fun c w => w.Agreed runId request c)
      (validateRestore (captureId runId request)) w := by
  refine captures_bind (captures_committedContract w) ?_
  intro c w h
  refine captures_bind (Q := fun _ w => w.Agreed runId request c)
    (captures_readRecords fun w' owned hg _ => h.grows hg) ?_
  intro records w h
  split
  · refine captures_bind (captures_verifyContents kept_agreed h) ?_
    intro _ w h
    split
    · exact captures_pure h
    · exact captures_throw _
  · exact captures_throw _

end callers

/-! ### The pool -/

/-- What a caller has returned is the contract agreed on. -/
def CaptureEnd.Just (runId : String) (request : CheckpointCreateRequest) :
    CaptureEnd → CaptureWorld → Prop
  | .created r, w | .validated r, w => ∀ c, r = .ok c → w.Agreed runId request c

theorem captures_thread {runId : String} {request : CheckpointCreateRequest} {w : CaptureWorld}
    {p : Capture CheckpointContract}
    {f : Except RuntimeError CheckpointContract → CaptureEnd}
    (h : Captures runId request (fun c w => w.Agreed runId request c) p w)
    (hf : ∀ r w, (∀ c, r = .ok c → w.Agreed runId request c) → (f r).Just runId request w) :
    Safe (agreeingRules runId request).step (Agreeing runId request) CaptureWorld.Grows
      CaptureWorld.Grows (fun a w _ => a.Just runId request w)
      (Program.bind p (fun r => .done (f r))) w 0 := by
  refine Program.safe_bind h ?_
  rintro r w m ⟨rfl, hr⟩
  exact hf r w hr

theorem captures_sound (runId : String) (request : CheckpointCreateRequest) :
    Pool.Sound (agreeingRules runId request) (Agreeing runId request) CaptureWorld.Grows
      (CaptureEnd.Just runId request) where
  refl := CaptureWorld.Grows.refl
  trans := CaptureWorld.Grows.trans
  stable := by
    intro a w w' hg h
    cases a with
    | created r => exact fun c hc => (h c hc).grows hg
    | validated r => exact fun c hc => (h c hc).grows hg
  drop := fun _ _ _ h => h.drop
  starts := by
    intro w p w' m hinv hstart
    cases hstart with
    | create =>
        refine ⟨.refl _, 0, by rwa [zero_add], ?_⟩
        exact captures_thread (captures_captureCheckpoint w) (fun _ _ hr => hr)
    | validate =>
        refine ⟨.refl _, 0, by rwa [zero_add], ?_⟩
        exact captures_thread (captures_validateRestore w) (fun _ _ hr => hr)
  env := fun _ _ _ hinv hothers => hinv.others hothers

/-- A new store without callers. -/
def noCaptures : Pool (withStore captureInterface) CaptureEnd CaptureWorld :=
  ⟨{ store := ⟨.initial, 0⟩ }, [], []⟩

theorem agreeing_initial (runId : String) (request : CheckpointCreateRequest) :
    Agreeing runId request noCaptures.state 0 where
  quiet := rfl
  replayed := Database.replayed_initial
  drawn := fun e he => absurd he List.not_mem_nil
  once := fun n => ⟨Nat.zero_le 1, fun h => absurd h (lt_irrefl 0)⟩
  requested := fun e he => absurd he List.not_mem_nil
  committed := fun e he => absurd he List.not_mem_nil
  taken := fun m hm => by cases hm

section results

variable {runId : String} {request : CheckpointCreateRequest} {w : CaptureWorld} {owned : ℕ → ℕ}
  {c : CheckpointContract}

/-- At most one event of a log with one identifier each. -/
theorem length_filter_le_one {log : List Event} {p : Event → Prop} [DecidablePred p] (id : String)
    (hnodup : (log.map Event.id).Nodup) (h : ∀ e ∈ log, p e → e.id = id) :
    (log.filter p).length ≤ 1 := by
  have hsub : ((log.filter p).map Event.id).Sublist (log.map Event.id) := List.filter_sublist.map _
  have hnodup' := hnodup.sublist hsub
  have hconst : (log.filter p).map Event.id = List.replicate (log.filter p).length id := by
    rw [List.eq_replicate_iff, List.length_map]
    refine ⟨rfl, ?_⟩
    intro x hx
    obtain ⟨e, he, rfl⟩ := List.mem_map.mp hx
    obtain ⟨hmem, hp⟩ := List.mem_filter.mp he
    exact h e hmem (of_decide_eq_true hp)
  rw [hconst, List.nodup_replicate] at hnodup'
  exact hnodup'

theorem Agreeing.at_most_one (h : Agreeing runId request w owned) :
    (w.log.filter (Requests (captureId runId request))).length ≤ 1 ∧
      (w.log.filter (Commits (captureId runId request))).length ≤ 1 := by
  constructor
  · refine length_filter_le_one (requestedId (captureId runId request)) w.store.db.events.nodup ?_
    intro e he hreq
    obtain ⟨c, t, ha, rfl⟩ := h.requested e he (.inr hreq)
    rw [← ha.spec.1]
    rfl
  · refine length_filter_le_one (committedId (captureId runId request)) w.store.db.events.nodup ?_
    intro e he hcom
    obtain ⟨c, t, ha, rfl⟩ := h.committed e he (.inr hcom)
    rw [← ha.spec.1]
    rfl

/-- The log begins as the contract of the checkpoint says. -/
theorem Agreeing.prefixHolds (h : Agreeing runId request w owned) (ha : w.Agreed runId request c) :
    CheckpointService.prefixHolds (w.store.db.readRecords c.source.runId.1) c = true := by
  obtain ⟨m, hm, hmakes⟩ := ha
  obtain ⟨hfront, -⟩ := h.taken m hm
  obtain ⟨-, -, last, hlast, hends⟩ := hmakes.spec
  have hmem : last ∈ w.store.db.readRecords runId := hfront.subset (List.mem_of_getLast? hlast)
  have hrun : c.source.runId.1 = runId := by
    rw [hends.runId]
    simpa using (List.mem_filter.mp hmem).2
  rw [hrun]
  exact prefixHolds_of_prefix hlast hends hfront

/-- **Checkpoints that are asked for again.**  When a checkpoint is never requested from other
material, all calls that return return one contract, which is the one in the log; there is at most
one request and one commit; no append finds another event under its identifier; and the log begins
as the contract says. -/
theorem captures_agree {P : Pool (withStore captureInterface) CaptureEnd CaptureWorld}
    (h : Pool.Reachable (agreeingRules runId request) noCaptures P) :
    (∀ c c', .created (.ok c) ∈ P.ended → .created (.ok c') ∈ P.ended → c = c') ∧
    (∀ c, .created (.ok c) ∈ P.ended → ∃ e ∈ P.state.log, Requests (captureId runId request) e ∧
      contractIn e = .ok c) ∧
    (P.state.log.filter (Requests (captureId runId request))).length ≤ 1 ∧
    (P.state.log.filter (Commits (captureId runId request))).length ≤ 1 ∧
    P.state.conflicted = false ∧
    ∀ e ∈ P.state.log, Requests (captureId runId request) e → ∃ c, contractIn e = .ok c ∧
      prefixHolds (P.state.store.db.readRecords c.source.runId.1) c = true := by
  have hempty : Pool.Ok (agreeingRules runId request) (Agreeing runId request) CaptureWorld.Grows
      (CaptureEnd.Just runId request) noCaptures [] :=
    ⟨agreeing_initial runId request, .nil, fun a ha => absurd ha List.not_mem_nil⟩
  obtain ⟨owned, hok⟩ := Pool.ok_of_reachable (captures_sound runId request) hempty h
  have hinv := hok.invariant
  refine ⟨?_, ?_, hinv.at_most_one.1, hinv.at_most_one.2, hinv.quiet, ?_⟩
  · intro c c' hc hc'
    exact (hok.ended _ hc c rfl).unique (hok.ended _ hc' c' rfl)
  · intro c hc
    have ha : P.state.Agreed runId request c := hok.ended _ hc c rfl
    obtain ⟨t, hmem⟩ := hinv.mem_requested ha
    exact ⟨_, hmem, requests_requestedEvent.mpr ha.spec.1, contractIn_requestedEvent⟩
  · intro e he hreq
    obtain ⟨c, t, ha, rfl⟩ := hinv.requested e he (.inr hreq)
    exact ⟨c, contractIn_requestedEvent, hinv.prefixHolds ha⟩

end results

/-! ### Two callers -/

section twoCallers

/-- A snapshot of an empty workspace. -/
def emptySnapshot : WorkspaceSnapshot where
  objectId := .str "empty"
  archiveSha256 := .str "archive"
  manifestSha256 := .str "manifest"
  fileCount := 0
  totalBytes := 0

/-- The clock stands still, runs are quiescent, and workspaces are empty; a log that is in order
need not be sorted. -/
def captureAct (clock : DateTime) : (op : (withStore captureInterface).Op) → CaptureWorld →
    Option ((withStore captureInterface).Reply op × CaptureWorld)
  | .inl (.append dispatch e), w =>
      some ((storeStrategy clock (.append dispatch e) w.store).1,
        w.appended e (storeStrategy clock (.append dispatch e) w.store).2)
  | .inl op, w =>
      some ((storeStrategy clock op w.store).1, { w with store := (storeStrategy clock op w.store).2 })
  | .inr (.request m e), w =>
      some (((storeStrategy clock (.append none e) w.store).1,
        w.requested m e (storeStrategy clock (.append none e) w.store).2) :
          Except StoreError Event × CaptureWorld)
  | .inr (.readRecords runId), w =>
      if w.store.db.events.rows.Pairwise (fun e f => w.store.db.seqOf e.id ≤ w.store.db.seqOf f.id) then
        some (((w.store.db.events.rows.map (fun e => (w.store.db.seqOf e.id, e))).filter
          (fun r => r.2.runId = runId), w) : List EventRecord × CaptureWorld)
      else none
  | .inr (.quiescence _), w => some ((true, w) : Bool × CaptureWorld)
  | .inr (.createSnapshot _), w =>
      some ((.ok emptySnapshot, w) : Except RuntimeError WorkspaceSnapshot × CaptureWorld)
  | .inr (.verifySnapshot _), w => some ((.ok (), w) : Except RuntimeError Unit × CaptureWorld)
  | .inr (.readArtifact _), _ => none

/-- These steps are possible. -/
def captureStrategy (clock : DateTime) (hclock : clock.utcOffset = some 0) :
    @Program.Strategy (withStore captureInterface) CaptureWorld captureStep where
  act := captureAct clock
  sound := by
    intro op w r h
    cases op with
    | inl op =>
        have hsound := storeStrategy_sound hclock op w.store
        cases op with
        | append dispatch e =>
            cases h
            exact ⟨_, hsound, rfl⟩
        | _ =>
            cases h
            exact ⟨_, hsound, rfl⟩
    | inr op =>
        cases op with
        | request m e =>
            cases h
            exact ⟨_, storeStrategy_sound hclock (.append none e) w.store, rfl⟩
        | readRecords runId =>
            dsimp only [captureAct] at h
            split at h
            next hordered =>
              cases h
              refine ⟨?_, rfl⟩
              rw [Database.readRecords, Database.records, List.mergeSort_of_pairwise]
              rw [List.pairwise_map]
              exact hordered.imp (fun hle => decide_eq_true hle)
            next => cases h
        | readArtifact path => cases h
        | _ =>
            cases h
            rfl

/-- A request. -/
def oneRequest : CheckpointCreateRequest := { requestId := ⟨"again", by decide⟩ }

/-- A call of `create_checkpoint` with it. -/
def oneCall : Program (withStore captureInterface) CaptureEnd :=
  Program.bind (captureCheckpoint "r1" oneRequest) (fun r => .done (.created r))

/-- A run of which two callers want the same checkpoint. -/
def sameCheckpoint : Pool (withStore captureInterface) CaptureEnd CaptureWorld where
  state := { store := (StoreWorld.mk .initial 0).wrote [runStarted "r1" "t1" noon] }
  threads := [oneCall, oneCall]

theorem sameCheckpoint_reachable
    {R : PoolRules (withStore captureInterface) CaptureEnd CaptureWorld}
    (hstarts : R.starts = CaptureStarts "r1" oneRequest)
    (henv : R.env = OtherWrites (captureId "r1" oneRequest)) :
    Pool.Reachable R noCaptures sameCheckpoint := by
  have hcall : ∀ w, R.starts w oneCall w := by
    intro w
    rw [hstarts]
    exact .create w
  refine .tail (.tail (.single (.env ?_)) (.start (hcall _))) (.start (hcall _))
  rw [henv]
  obtain ⟨es, hes, hwrote, hdrawn⟩ := (StoreWorld.mk .initial 0).wrote_db [runStarted "r1" "t1" noon]
  refine ⟨_, es, rfl, hdrawn.ge, hwrote, ?_⟩
  intro e he
  rw [List.mem_singleton.mp (hes he)]
  refine ⟨⟨by decide, by decide, by decide⟩, ?_⟩
  intro n hn
  have hfirst := congrArg (fun s => s.toList.take 5) hn
  simp [runStarted, uuid4] at hfirst

/-- What a caller has returned. -/
def returned (P : Pool (withStore captureInterface) CaptureEnd CaptureWorld) (i : ℕ) :
    Option (Except RuntimeError CheckpointContract) :=
  match P.threads[i]? with
  | some (.done (.created r)) => some r
  | _ => none

theorem mem_of_returned {P : Pool (withStore captureInterface) CaptureEnd CaptureWorld} {i : ℕ}
    {r : Except RuntimeError CheckpointContract} (h : returned P i = some r) :
    .done (.created r) ∈ P.threads := by
  unfold returned at h
  split at h
  next r' hi =>
    obtain rfl := Option.some.inj h
    exact List.mem_of_getElem? hi
  next => cases h

/-- Both callers read the log before either has requested the checkpoint; the request of the second
one then clashes with that of the first. -/
def bothRequest : Pool (withStore captureInterface) CaptureEnd CaptureWorld :=
  @Pool.follow (withStore captureInterface) CaptureEnd CaptureWorld (captureRules "r1" oneRequest)
    (captureStrategy noon rfl) sameCheckpoint
    (List.replicate 12 0 ++ List.replicate 13 1 ++ List.replicate 4 0)

theorem bothRequest_conflicts : ∃ P,
    Pool.Reachable (captureRules "r1" oneRequest) noCaptures P ∧ ∃ id,
      .created (.error (.store (.valueError ("event id already belongs to another event: " ++ id)))) ∈
        P.ended := by
  have hreturned : returned bothRequest 0 = some (.error (.store (.valueError
      ("event id already belongs to another event: " ++ requestedId (captureId "r1" oneRequest))))) := by
    decide +kernel
  obtain ⟨P, hreach, -, hended⟩ := @Pool.ended_of_done _ _ _ (captureRules "r1" oneRequest) _ _
    (mem_of_returned hreturned)
  have hboth : Pool.Reachable (captureRules "r1" oneRequest) noCaptures bothRequest :=
    (sameCheckpoint_reachable rfl rfl).trans (Pool.follow_reachable _ _ _)
  exact ⟨P, hboth.trans hreach, _, hended⟩

instance (w : CaptureWorld) (op : (withStore captureInterface).Op) : Decidable (OneSource w op) := by
  cases op with
  | inl op => exact .isTrue trivial
  | inr op =>
      cases op with
      | request m e => exact inferInstanceAs (Decidable (∀ m' ∈ w.taken, m = m'))
      | _ => exact .isTrue trivial

/-- The first caller alone, and then the second. -/
def oneAfterTheOther : Pool (withStore captureInterface) CaptureEnd CaptureWorld :=
  @Pool.follow (withStore captureInterface) CaptureEnd CaptureWorld (agreeingRules "r1" oneRequest)
    ((captureStrategy noon rfl).restrict OneSource) sameCheckpoint
    (List.replicate 20 0 ++ List.replicate 20 1)

/-- What the second caller returns is in the log. -/
theorem oneAfterTheOther_returns : ∃ P c, Pool.Reachable (agreeingRules "r1" oneRequest) noCaptures P ∧
    .created (.ok c) ∈ P.ended ∧
    ∃ e ∈ P.state.log, Requests (captureId "r1" oneRequest) e ∧ contractIn e = .ok c := by
  have hok : ((returned oneAfterTheOther 1).bind Except.toOption).isSome = true := by decide +kernel
  obtain ⟨c, hc⟩ := Option.isSome_iff_exists.mp hok
  obtain ⟨r, hr, hrc⟩ := Option.bind_eq_some_iff.mp hc
  have hreturned : returned oneAfterTheOther 1 = some (.ok c) := by
    rw [hr]
    cases r with
    | ok c' =>
        obtain rfl := Option.some.inj hrc
        rfl
    | error e => cases hrc
  obtain ⟨P, hreach, -, hended⟩ := @Pool.ended_of_done _ _ _ (agreeingRules "r1" oneRequest) _ _
    (mem_of_returned hreturned)
  have hboth : Pool.Reachable (agreeingRules "r1" oneRequest) noCaptures oneAfterTheOther :=
    (@sameCheckpoint_reachable (agreeingRules "r1" oneRequest) rfl rfl).trans
      (Pool.follow_reachable _ _ _)
  exact ⟨P, c, hboth.trans hreach, hended, (captures_agree (hboth.trans hreach)).2.1 c hended⟩

end twoCallers

end CrazyHarness
