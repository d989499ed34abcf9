import CrazyHarness.Lib.Rotation
import CrazyHarness.Lib.Traced
import CrazyHarness.Runtime.Scheduler

/-! # Selecting under the lock

`_reserve_next_locked` runs under the lock of its scheduler.  What the lock guards only changes
where the call itself changes it; the store and the other processes go on between any two steps.

* `reserveNext_spec`: a call that reserves takes the first worker from the cursor on that it did not
  find unready, moves the cursor past it, and keeps both bounds; a call that does not reserve leaves
  the scheduler alone, and if it looked at all it found every worker unready. -/

namespace CrazyHarness

open Lib RuntimeM Program

/-! ### What the lock guards -/

/-- The key of an entry of `_in_flight`. -/
def Reservation.key (r : Reservation) : String × String := (r.workerId, r.delivery.deliveryId)

/-- The part of a process that its scheduler's lock guards. -/
structure SchedulerView where
  accepting : Bool
  cancelledRuns : List String
  inFlight : List (String × String)
  selectionCursor : ℕ

def ProcessMemory.scheduler (m : ProcessMemory) : SchedulerView where
  accepting := m.accepting
  cancelledRuns := m.cancelledRuns
  inFlight := m.inFlight.map Reservation.key
  selectionCursor := m.selectionCursor

/-- What others do while the lock of scheduler `i` is held. -/
def LockHeld (i : ℕ) (w w' : ResidentWorld) : Prop :=
  (w'.memory i).scheduler = (w.memory i).scheduler

/-- A step of a call, with the world in which it was taken. -/
abbrev Moment := ResidentWorld × (withStore residentInterface).Op

theorem countP_workerId (m : ProcessMemory) (workerId : String) :
    m.inFlight.countP (fun r => r.workerId = workerId) =
      m.scheduler.inFlight.countP (fun key => key.1 = workerId) := by
  rw [ProcessMemory.scheduler, List.countP_map]
  rfl

theorem length_inFlight (m : ProcessMemory) : m.inFlight.length = m.scheduler.inFlight.length :=
  (List.length_map _).symm

theorem key_mem_inFlight (m : ProcessMemory) (workerId deliveryId : String) :
    (∃ r ∈ m.inFlight, r.workerId = workerId ∧ r.delivery.deliveryId = deliveryId) ↔
      (workerId, deliveryId) ∈ m.scheduler.inFlight := by
  rw [ProcessMemory.scheduler, List.mem_map]
  refine exists_congr fun r => and_congr_right fun _ => ?_
  exact Prod.mk.injEq .. ▸ Iff.rfl

/-! ### Workers that wait -/

/-- The clock with which a step asks for claims. -/
def claimClock : (withStore residentInterface).Op → Option DateTime
  | .inl (.claimWork _ _ _ now _) => some now
  | _ => none

/-- A worker has spare concurrency, and a pending delivery whose claims are obtainable. -/
structure Waiting (cfg : SchedulerConfig) (i : ℕ) (worker : String × ℕ) (d : Delivery) (slot : ℕ)
    (m : Moment) : Prop where
  spare : (m.1.memory i).inFlight.countP (fun r => r.workerId = worker.1) < worker.2
  pending : ∃ ds, pendingIn worker.1 (m.1.store.db.readAll none) = .ok ds ∧ d ∈ ds
  slot_lt : slot < worker.2
  obtainable : ∀ now ∈ claimClock m.2, ∃ claims db, m.1.store.db.claimWork
    (claimKeys worker.1 d slot) cfg.ownerId cfg.workClaimSeconds now (some d.event.runId) =
      .ok (some claims, db)

/-- The delivery of a waiting worker is not of a run that is cancelled here, nor in flight here. -/
structure Ready (cfg : SchedulerConfig) (i : ℕ) (worker : String × ℕ) (d : Delivery) (slot : ℕ)
    (m : Moment) : Prop extends Waiting cfg i worker d slot m where
  not_cancelled : d.event.runId ∉ (m.1.memory i).cancelledRuns
  not_inFlight : (worker.1, d.deliveryId) ∉ (m.1.memory i).scheduler.inFlight

/-- At some moment it was not so. -/
def Refuted (P : Moment → Prop) (l : List Moment) : Prop := ∃ m ∈ l, ¬ P m

theorem Refuted.mono {P : Moment → Prop} {l l' : List Moment} (h : Refuted P l) (hsub : l ⊆ l') :
    Refuted P l' := by
  obtain ⟨m, hm, hnot⟩ := h
  exact ⟨m, hsub hm, hnot⟩

/-! ### Rules -/

section rules

variable {i : ℕ} {V : SchedulerView} {α β γ : Type}

/-- The scheduler is as `V` says. -/
def Shows (i : ℕ) (V : SchedulerView) (w : ResidentWorld) : Prop := (w.memory i).scheduler = V

/-- It was so at every moment. -/
def Undisturbed (i : ℕ) (V : SchedulerView) (l : List Moment) (w : ResidentWorld) : Prop :=
  Shows i V w ∧ ∀ m ∈ l, Shows i V m.1

/-- Code under the lock. -/
abbrev Locked (i : ℕ) (pre : ResidentWorld → Prop) (p : Program (withStore residentInterface) α)
    (post : List Moment → α → ResidentWorld → Prop) : Prop :=
  Meets (LockHeld i) residentStep pre p post

theorem Undisturbed.append {l₁ l₂ : List Moment} {w : ResidentWorld} (h₂ : Undisturbed i V l₂ w)
    (h₁ : ∀ m ∈ l₁, Shows i V m.1) : Undisturbed i V (l₁ ++ l₂) w := by
  refine ⟨h₂.1, ?_⟩
  intro m hm
  exact (List.mem_append.mp hm).elim (h₁ m) (h₂.2 m)

theorem shows_moments {w₁ w₂ : ResidentWorld} (op₁ op₂ : (withStore residentInterface).Op)
    (h₁ : Shows i V w₁) (h₂ : Shows i V w₂) : ∀ m ∈ [(w₁, op₁), (w₂, op₂)], Shows i V m.1 := by
  intro m hm
  rcases List.mem_cons.mp hm with rfl | hm
  · exact h₁
  · obtain rfl := List.mem_singleton.mp hm
    exact h₂

theorem Shows.lockHeld {w w' : ResidentWorld} (h : Shows i V w) (hlock : LockHeld i w w') : Shows i V w' :=
  Eq.trans hlock h

/-- A look at the memory. -/
theorem locked_reads {op : MemoryOp} {f : op.Reply → Resident β}
    {post : List Moment → Except RuntimeError β → ResidentWorld → Prop}
    (hreads : ∀ m, (op.run m).2 = m)
    (h : ∀ w, Shows i V w → Locked i (Shows i V) (f (op.run (w.memory i)).1)
      (fun l out w' => post ((w, .inr (.memory i op)) :: l) out w')) :
    Locked i (Shows i V) (memory i op >>= f : Resident β) post := by
  refine meets_request (fun _ _ hat hlock => hat.lockHeld hlock) ?_
  rintro w r w₂ l out w' ⟨hat, rfl, rfl⟩ hrun
  rw [hreads, ResidentWorld.setMemory, Function.update_eq_self] at hrun
  exact h w hat w l out w' hat hrun

/-- A call of the store that does not raise. -/
theorem locked_call {op : StoreOp} {f : op.Reply → Resident β}
    {post : List Moment → Except RuntimeError β → ResidentWorld → Prop}
    (h : ∀ w r s, Shows i V w → storeStep w.store op r s → Locked i (Shows i V) (f r)
      (fun l out w' => post ((w, .inl op) :: l) out w')) :
    Locked i (Shows i V) (lift (call op) >>= f : Resident β) post := by
  refine meets_request (fun _ _ hat hlock => hat.lockHeld hlock) ?_
  rintro w r w₂ l out w' ⟨hat, s, hs, rfl⟩ hrun
  exact h w r s hat hs { w with store := s } l out w' hat hrun

/-- What an attempt comes to: it raises or finds nothing, and then `bad` is known of its moments, or
it finds something. -/
def Outcome (i : ℕ) (V : SchedulerView) (bad : List Moment → Prop)
    (good : List Moment → γ → ResidentWorld → Prop) (l : List Moment) :
    Except RuntimeError (Option γ) → ResidentWorld → Prop
  | .error _, w => Undisturbed i V l w
  | .ok none, w => Undisturbed i V l w ∧ bad l
  | .ok (some y), w => good l y w

/-- After an attempt that found nothing, the loop goes on. -/
theorem locked_firstSome {bad : β → List Moment → Prop}
    {good : β → List Moment → γ → ResidentWorld → Prop} {body : β → Resident (Option γ)}
    (hmono : ∀ {x l l'}, bad x l → l ⊆ l' → bad x l') {xs : List β}
    (hbody : ∀ x ∈ xs, Locked i (Shows i V) (body x) (Outcome i V (bad x) (good x))) :
    Locked i (Shows i V) (firstSome body xs) (Outcome i V (fun l => ∀ x ∈ xs, bad x l)
      (fun l y w => ∃ before x after l₁ l₂, xs = before ++ x :: after ∧ l = l₁ ++ l₂ ∧
        (∀ m ∈ l₁, Shows i V m.1) ∧ (∀ z ∈ before, bad z l) ∧ good x l₂ y w)) := by
  induction xs with
  | nil =>
      refine meets_done ?_
      intro w hat
      exact ⟨⟨hat, fun m hm => absurd hm List.not_mem_nil⟩, fun x hx => absurd hx List.not_mem_nil⟩
  | cons x xs ih =>
      refine meets_bind (hbody x List.mem_cons_self) ?_
      rintro l₁ (e | found)
      · refine meets_done ?_
        intro w hquiet
        rw [List.append_nil]
        exact hquiet
      · cases found with
        | some y =>
            refine meets_done ?_
            intro w hgood
            exact ⟨[], x, xs, [], l₁, rfl, by rw [List.append_nil, List.nil_append],
              fun m hm => absurd hm List.not_mem_nil, fun z hz => absurd hz List.not_mem_nil, hgood⟩
        | none =>
            rintro w l₂ out w' ⟨⟨hat, hmoments⟩, hbad⟩ hrun
            have hrest := ih (fun z hz => hbody z (List.mem_cons_of_mem x hz)) w l₂ out w' hat hrun
            have hsub : l₂ ⊆ l₁ ++ l₂ := List.subset_append_right l₁ l₂
            match out, hrest with
            | .error e, hrest => exact hrest.append hmoments
            | .ok none, ⟨hrest, hall⟩ =>
                refine ⟨hrest.append hmoments, ?_⟩
                intro z hz
                rcases List.mem_cons.mp hz with rfl | hz
                · exact hmono hbad (List.subset_append_left l₁ l₂)
                · exact hmono (hall z hz) hsub
            | .ok (some y), ⟨before, z, after, k₁, k₂, hsplit, hl₂, hk₁, hbefore, hgood⟩ =>
                refine ⟨x :: before, z, after, l₁ ++ k₁, k₂, by rw [hsplit, List.cons_append],
                  by rw [hl₂, List.append_assoc], ?_, ?_, hgood⟩
                · intro m hm
                  exact (List.mem_append.mp hm).elim (hmoments m) (hk₁ m)
                · intro u hu
                  rcases List.mem_cons.mp hu with rfl | hu
                  · exact hmono hbad (List.subset_append_left l₁ l₂)
                  · exact hmono (hbefore u hu) hsub

end rules

/-! ### One call -/

section call

variable {cfg : SchedulerConfig} {i : ℕ} {V : SchedulerView}

/-- A slot whose claims are not given was not to be had. -/
theorem claimSlot_spec (workerId : String) (d : Delivery) (slot : ℕ) :
    Locked i (Shows i V) (claimSlot cfg workerId d slot) (Outcome i V
      (fun l => ∀ maxConcurrency, Refuted (Ready cfg i (workerId, maxConcurrency) d slot) l)
      (fun l _ w => Undisturbed i V l w)) := by
  refine locked_call ?_
  intro w₁ claimedAt s₁ hat₁ _
  refine meets_request (fun _ _ hat hlock => hat.lockHeld hlock) ?_
  rintro w r w₂ l out w' ⟨hat, s, hs, rfl⟩ hrun
  have hmoments := shows_moments (.inl .now) (.inl (.claimWork (claimKeys workerId d slot) cfg.ownerId
    cfg.workClaimSeconds claimedAt (some d.event.runId))) hat₁ hat
  rcases StoreWorld.returns_cases hs with ⟨e, -, rfl, rfl⟩ | ⟨claims, db, hclaim, rfl, rfl⟩
  · cases hrun
    exact ⟨hat, hmoments⟩
  · cases hrun
    cases claims with
    | some claims => exact ⟨hat, hmoments⟩
    | none =>
        refine ⟨⟨hat, hmoments⟩, fun maxConcurrency => ⟨_, List.mem_cons_of_mem _ List.mem_cons_self, ?_⟩⟩
        intro hready
        obtain ⟨claims, db', hobtained⟩ := hready.obtainable claimedAt rfl
        have hsame := hclaim.symm.trans hobtained
        cases hsame

/-- What a reservation does to what the lock guards. -/
structure Reserves (i : ℕ) (V : SchedulerView) (next : ℕ) (l : List Moment) (r : Reservation)
    (w : ResidentWorld) : Prop where
  fresh : r.key ∉ V.inFlight
  after : Shows i { V with inFlight := V.inFlight ++ [r.key], selectionCursor := next } w
  moments : ∀ m ∈ l, (m.1.memory i).scheduler.inFlight = V.inFlight ∨
    (m.1.memory i).scheduler.inFlight = V.inFlight ++ [r.key]

/-- A reservation after quiet moments. -/
theorem Reserves.after_quiet {next : ℕ} {l₁ l₂ : List Moment} {r : Reservation} {w : ResidentWorld}
    (h : Reserves i V next l₂ r w) (hquiet : ∀ m ∈ l₁, Shows i V m.1) :
    Reserves i V next (l₁ ++ l₂) r w := by
  refine ⟨h.fresh, h.after, ?_⟩
  intro m hm
  rcases List.mem_append.mp hm with hm | hm
  · exact .inl (congrArg SchedulerView.inFlight (hquiet m hm))
  · exact h.moments m hm

theorem reserve_spec {next : ℕ} {workerId : String} {d : Delivery} (claims : Claims)
    (hfresh : (workerId, d.deliveryId) ∉ V.inFlight) :
    Locked i (Shows i V) (reserve i next workerId d (some claims)) (fun l out w => ∃ r,
      out = .ok (some r) ∧ r.workerId = workerId ∧ Reserves i V next l r w) := by
  refine meets_request (fun _ _ hat hlock => hat.lockHeld hlock) ?_
  rintro w₁ _ w₂ l out w' ⟨hat₁, rfl, rfl⟩ hrun
  cases hrun with
  | @request _ _ _ _ w₃ w₄ _ l _ hlock hstep hrun =>
      obtain ⟨rfl, rfl⟩ := hstep
      cases hrun
      have hmid : Shows i { V with inFlight := V.inFlight ++ [(workerId, d.deliveryId)] } w₃ := by
        refine Eq.trans hlock ?_
        simp only [Shows] at hat₁ ⊢
        subst hat₁
        simp [ResidentWorld.setMemory, MemoryOp.run, ProcessMemory.scheduler, Reservation.key]
      refine ⟨_, rfl, rfl, hfresh, ?_, ?_⟩
      · simp only [Shows, ProcessMemory.scheduler, SchedulerView.mk.injEq] at hmid ⊢
        simp only [ResidentWorld.setMemory, MemoryOp.run, Function.update_self]
        exact ⟨hmid.1, hmid.2.1, by rw [hmid.2.2.1]; rfl, trivial⟩
      · intro m hm
        rcases List.mem_cons.mp hm with rfl | hm
        · exact .inl (congrArg SchedulerView.inFlight hat₁)
        · obtain rfl := List.mem_singleton.mp hm
          exact .inr (congrArg SchedulerView.inFlight hmid)

/-- A pending delivery that is not reserved was not ready. -/
theorem reserveDelivery_spec (next : ℕ) (workerId : String) (maxConcurrency : ℕ) (d : Delivery) :
    Locked i (Shows i V) (reserveDelivery cfg i next none workerId maxConcurrency d) (Outcome i V
      (fun l => ∀ slot, Refuted (Ready cfg i (workerId, maxConcurrency) d slot) l)
      (fun l r w => r.workerId = workerId ∧ Reserves i V next l r w)) := by
  have hfilter : ¬ ∃ allowed ∈ (none : Option (List String)), d.event.runId ∉ allowed := by
    rintro ⟨allowed, hallowed, -⟩
    exact Option.not_mem_none allowed hallowed
  rw [reserveDelivery, if_neg hfilter]
  refine locked_reads (fun _ => rfl) ?_
  intro w₁ hat₁
  dsimp only
  split
  next hcancelled =>
    refine meets_done ?_
    intro w hat
    have hquiet : Undisturbed i V [(w₁, .inr (.memory i .cancelledRuns))] w :=
      ⟨hat, List.forall_mem_singleton.mpr hat₁⟩
    refine ⟨hquiet, fun slot => ⟨_, List.mem_cons_self, ?_⟩⟩
    intro hready
    exact hready.not_cancelled hcancelled
  next hcancelled =>
    refine locked_reads (fun _ => rfl) ?_
    intro w₂ hat₂
    have hmoments := shows_moments (.inr (.memory i .cancelledRuns)) (.inr (.memory i .inFlight)) hat₁ hat₂
    split
    next htaken =>
      refine meets_done ?_
      intro w hat
      refine ⟨⟨hat, hmoments⟩, fun slot => ⟨_, List.mem_cons_of_mem _ List.mem_cons_self, ?_⟩⟩
      intro hready
      exact hready.not_inFlight ((key_mem_inFlight _ _ _).mp htaken)
    next htaken =>
      have hfresh : (workerId, d.deliveryId) ∉ V.inFlight := by
        intro hmem
        rw [← hat₂] at hmem
        exact htaken ((key_mem_inFlight _ _ _).mpr hmem)
      refine meets_bind (locked_firstSome
        (fun hbad hsub maxConcurrency => (hbad maxConcurrency).mono hsub)
        (fun slot _ => claimSlot_spec workerId d slot)) ?_
      rintro l (e | claims)
      · refine meets_done ?_
        intro w hquiet
        rw [List.append_nil]
        exact hquiet.append hmoments
      · cases claims with
        | none =>
            refine meets_done ?_
            rintro w ⟨hquiet, hbad⟩
            rw [List.append_nil]
            refine ⟨hquiet.append hmoments, fun slot => ?_⟩
            rcases Nat.lt_or_ge slot maxConcurrency with hslot | hslot
            · have hrefuted := hbad slot (List.mem_range.mpr hslot) maxConcurrency
              exact hrefuted.mono (List.subset_append_right [_, _] l)
            · exact ⟨_, List.mem_cons_self, fun hready => absurd hready.slot_lt (not_lt.mpr hslot)⟩
        | some claims =>
            rintro w l₂ out w' ⟨_, _, _, k₁, k₂, -, rfl, hk₁, -, hk₂⟩ hrun
            obtain ⟨r, rfl, hworker, hreserves⟩ := reserve_spec claims hfresh w l₂ out w' hk₂.1 hrun
            refine ⟨hworker, ?_⟩
            have hquiet := (hk₂.append hk₁).append hmoments
            exact hreserves.after_quiet hquiet.2

/-- A worker for which nothing is reserved was not ready. -/
theorem reserveWorker_spec (next : ℕ) (worker : String × ℕ) :
    Locked i (Shows i V) (reserveWorker cfg i none (next, worker)) (Outcome i V
      (fun l => ∀ d slot, Refuted (Ready cfg i worker d slot) l)
      (fun l r w => (r.workerId = worker.1 ∧
        V.inFlight.countP (fun key => key.1 = worker.1) < worker.2) ∧ Reserves i V next l r w)) := by
  obtain ⟨workerId, maxConcurrency⟩ := worker
  refine locked_reads (fun _ => rfl) ?_
  intro w₁ hat₁
  have hactive : (w₁.memory i).inFlight.countP (fun r => r.workerId = workerId) =
      V.inFlight.countP (fun key => key.1 = workerId) := by
    rw [countP_workerId, hat₁]
  show Locked i (Shows i V) (if maxConcurrency ≤ (w₁.memory i).inFlight.countP
    (fun r => r.workerId = workerId) then pure none else do
      let pending ← DurableMailbox.pending workerId
      firstSome (reserveDelivery cfg i next none workerId maxConcurrency) pending :
        Resident (Option Reservation)) _
  rw [hactive]
  split
  next hfull =>
    refine meets_done ?_
    intro w hat
    refine ⟨⟨hat, List.forall_mem_singleton.mpr hat₁⟩, fun d slot => ⟨_, List.mem_cons_self, ?_⟩⟩
    intro hready
    have hspare := hready.spare
    rw [hactive] at hspare
    exact absurd hspare (not_lt.mpr hfull)
  next hfull =>
    refine locked_call ?_
    rintro w₂ log s hat₂ ⟨rfl, -⟩
    have hmoments := shows_moments (.inr (.memory i .inFlight)) (.inl (.readAll none)) hat₁ hat₂
    cases hpending : pendingIn workerId (w₂.store.db.readAll none) with
    | error e =>
        refine meets_done ?_
        intro w hat
        exact ⟨hat, hmoments⟩
    | ok ds =>
        intro w l out w' hat hrun
        have hloop := locked_firstSome (fun hbad hsub slot => (hbad slot).mono hsub)
          (fun d (_ : d ∈ ds) => reserveDelivery_spec next workerId maxConcurrency d) w l out w' hat hrun
        match out, hloop with
        | .error e, hquiet => exact hquiet.append hmoments
        | .ok none, ⟨hquiet, hbad⟩ =>
            refine ⟨hquiet.append hmoments, fun d slot => ?_⟩
            by_cases hd : d ∈ ds
            · exact (hbad d hd slot).mono (List.subset_append_right [_, _] l)
            · refine ⟨_, List.mem_cons_of_mem _ List.mem_cons_self, ?_⟩
              intro hready
              obtain ⟨ds', hread, hd'⟩ := hready.pending
              obtain rfl := Except.ok.inj (hpending.symm.trans hread)
              exact hd hd'
        | .ok (some r), ⟨before, d, after, l₁, l₂, hds, hl, hl₁, hbefore, hworker, hreserves⟩ =>
            refine ⟨⟨hworker, not_le.mp hfull⟩, ?_⟩
            have hall := (hreserves.after_quiet hl₁).after_quiet hmoments
            rw [← hl] at hall
            exact hall

/-! ### The selection -/

theorem filterMap_range {β γ : Type} (F : ℕ → β → γ) (l : List β) :
    (List.range l.length).filterMap (fun k => l[k]?.map (F k)) = l.mapIdx F := by
  induction l using List.reverseRecOn with
  | nil => rfl
  | append_singleton l x ih =>
      have hlast : (l ++ [x]).length = l.length + 1 := by simp
      rw [hlast, List.range_succ, List.filterMap_append, List.mapIdx_concat, ← ih]
      congr 1
      · refine List.filterMap_congr ?_
        intro k hk
        rw [List.getElem?_append_left (List.mem_range.mp hk)]
      · simp

/-- The workers in the order of the selection are those from the cursor on. -/
theorem selection_eq_mapIdx (workers : List (String × ℕ)) (cursor : ℕ) :
    selection workers cursor = (workers.rotate cursor).mapIdx
      (fun k worker => (((cursor + k) % workers.length + 1) % workers.length, worker)) := by
  rw [← filterMap_range, List.length_rotate]
  refine List.filterMap_congr ?_
  intro k hk
  rw [List.getElem?_rotate (List.mem_range.mp hk), Nat.add_comm k cursor]

theorem mem_selection {workers : List (String × ℕ)} {cursor : ℕ} {worker : String × ℕ}
    (h : worker ∈ workers) : ∃ x ∈ selection workers cursor, x.2 = worker := by
  obtain ⟨k, hk, hget⟩ := List.mem_iff_getElem.mp (List.mem_rotate.mpr h : worker ∈ workers.rotate cursor)
  rw [selection_eq_mapIdx]
  refine ⟨_, List.getElem_mem (by rw [List.length_mapIdx]; exact hk), ?_⟩
  rw [List.getElem_mapIdx, hget]

/-- Whoever is selected has its turn. -/
theorem selection_turn {workers : List (String × ℕ)} {cursor next : ℕ} {worker : String × ℕ}
    {before after : List (ℕ × String × ℕ)}
    (h : selection workers cursor = before ++ (next, worker) :: after) :
    Turn (before.map Prod.snd) worker (workers.rotate cursor) (workers.rotate next) := by
  rw [selection_eq_mapIdx] at h
  obtain ⟨passed, rest, hqueue, rfl, hrest⟩ := List.mapIdx_eq_append_iff.mp h
  obtain ⟨x, rest, rfl, hx, -⟩ := List.mapIdx_eq_cons_iff.mp hrest
  obtain ⟨rfl, rfl⟩ := Prod.mk.inj hx
  have hpassed : (passed.mapIdx (fun k worker =>
      (((cursor + k) % workers.length + 1) % workers.length, worker))).map Prod.snd = passed := by
    refine List.ext_getElem? fun k => ?_
    rw [List.getElem?_map, List.getElem?_mapIdx, Option.map_map]
    exact Option.map_id'
  rw [hpassed, Nat.mod_add_mod, List.rotate_mod, Nat.zero_add]
  exact turn_rotate hqueue

/-! ### The call -/

/-- A call that reserves: whose turn it is, after whom. -/
structure Selects (cfg : SchedulerConfig) (i : ℕ) (V : SchedulerView) (l : List Moment)
    (r : Reservation) (w : ResidentWorld) (passed : List (String × ℕ)) (worker : String × ℕ)
    (next : ℕ) : Prop where
  turn : Turn passed worker (cfg.workers.rotate V.selectionCursor) (cfg.workers.rotate next)
  unready : ∀ v ∈ passed, ∀ d slot, Refuted (Ready cfg i v d slot) l
  name : r.workerId = worker.1
  room : V.inFlight.length < cfg.maxWorkers
  spare : V.inFlight.countP (fun key => key.1 = worker.1) < worker.2
  reserves : Reserves i V next l r w

/-- `_reserve_next_locked`, among others that respect the lock. -/
theorem reserveNext_spec (cfg : SchedulerConfig) (i : ℕ) (V : SchedulerView) :
    Locked i (Shows i V) (reserveNext cfg i none) (Outcome i V
      (fun l => V.accepting = true → V.inFlight.length < cfg.maxWorkers →
        ∀ v ∈ cfg.workers, ∀ d slot, Refuted (Ready cfg i v d slot) l)
      (fun l r w => ∃ passed worker next, Selects cfg i V l r w passed worker next)) := by
  refine locked_reads (fun _ => rfl) ?_
  intro w₁ hat₁
  refine locked_reads (fun _ => rfl) ?_
  intro w₂ hat₂
  have haccepting : (w₁.memory i).accepting = V.accepting := congrArg SchedulerView.accepting hat₁
  have hlength : (w₂.memory i).inFlight.length = V.inFlight.length := by
    rw [length_inFlight, hat₂]
  have hmoments := shows_moments (.inr (.memory i .accepting)) (.inr (.memory i .inFlight)) hat₁ hat₂
  show Locked i (Shows i V) (if (w₁.memory i).accepting = false ∨
    cfg.maxWorkers ≤ (w₂.memory i).inFlight.length then pure none else do
      let cursor ← memory i .selectionCursor
      firstSome (reserveWorker cfg i none) (selection cfg.workers cursor) :
        Resident (Option Reservation)) _
  rw [haccepting, hlength]
  split
  next hclosed =>
    refine meets_done ?_
    intro w hat
    refine ⟨⟨hat, hmoments⟩, fun haccepts hroom => ?_⟩
    rcases hclosed with hclosed | hclosed
    · rw [haccepts] at hclosed
      cases hclosed
    · exact absurd hroom (not_lt.mpr hclosed)
  next hclosed =>
    refine locked_reads (fun _ => rfl) ?_
    intro w₃ hat₃
    have hcursor : (w₃.memory i).selectionCursor = V.selectionCursor :=
      congrArg SchedulerView.selectionCursor hat₃
    let seen : List Moment := [(w₁, .inr (.memory i .accepting)), (w₂, .inr (.memory i .inFlight)),
      (w₃, .inr (.memory i .selectionCursor))]
    have hseen : ∀ m ∈ seen, Shows i V m.1 := by
      intro m hm
      rcases List.mem_cons.mp hm with rfl | hm
      · exact hat₁
      · exact shows_moments _ _ hat₂ hat₃ m hm
    show Locked i (Shows i V) (firstSome (reserveWorker cfg i none)
      (selection cfg.workers (w₃.memory i).selectionCursor)) _
    rw [hcursor]
    intro w l out w' hat hrun
    have hloop := locked_firstSome (fun hbad hsub d slot => (hbad d slot).mono hsub)
      (fun worker (_ : worker ∈ selection cfg.workers V.selectionCursor) =>
        reserveWorker_spec worker.1 worker.2) w l out w' hat hrun
    have hsub : l ⊆ seen ++ l := List.subset_append_right seen l
    match out, hloop with
    | .error e, hquiet => exact hquiet.append hseen
    | .ok none, ⟨hquiet, hbad⟩ =>
        refine ⟨hquiet.append hseen, fun _ _ v hv d slot => ?_⟩
        obtain ⟨x, hx, rfl⟩ := mem_selection hv
        exact (hbad x hx d slot).mono hsub
    | .ok (some r), ⟨before, worker, after, l₁, l₂, hsplit, hl, hl₁, hbefore, ⟨hname, hspare⟩,
        hreserves⟩ =>
        refine ⟨before.map Prod.snd, worker.2, worker.1, selection_turn hsplit, ?_, hname, ?_, hspare, ?_⟩
        · intro v hv d slot
          obtain ⟨x, hx, rfl⟩ := List.mem_map.mp hv
          exact (hbefore x hx d slot).mono hsub
        · exact not_le.mp (fun hfull => hclosed (.inr hfull))
        · have hall := (hreserves.after_quiet hl₁).after_quiet hseen
          rw [← hl] at hall
          exact hall

end call

end CrazyHarness
