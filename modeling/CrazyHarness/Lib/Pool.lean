import CrazyHarness.Lib.Program

/-! # Concurrent programs

A `Pool` is a shared state with the programs that run over it.  One step of the pool is one
operation of one program, the death of a program between two operations, the start of a
program, or a change of the state by its environment.  The order is arbitrary.

`Pool.follow` computes the run of a schedule.  `Pool.invariant_of_asks`: what every request of
some kind keeps, programs that make no others keep.  `Pool.ok_of_reachable`: when every program
that is ever started is `Safe` with the steps of the others and of the environment as its `rely`,
then every reachable pool has the invariant and every program in it is still safe; what ended,
ended in its `post`. -/

namespace Lib

open Program

variable {I : Interface} {α σ : Type}

/-- A shared state and the programs that run over it; `ended` are the values of those that
have come to their end. -/
structure Pool (I : Interface) (α σ : Type) where
  state : σ
  threads : List (Program I α)
  ended : List α := []

/-- What a pool is run with: the meaning of the operations, which programs may start in
which states, and what else may change the state. -/
structure PoolRules (I : Interface) (α σ : Type) where
  step : σ → (op : I.Op) → I.Reply op → σ → Prop
  starts : σ → Program I α → σ → Prop
  env : σ → σ → Prop

/-- A related list around one element of the other. -/
theorem forall₂_around {β γ : Type} {Q : β → γ → Prop} {before after : List β} {b : β} {cs : List γ}
    (h : List.Forall₂ Q (before ++ b :: after) cs) :
    ∃ c cs₁ cs₂, cs = cs₁ ++ c :: cs₂ ∧ List.Forall₂ Q before cs₁ ∧ Q b c ∧
      List.Forall₂ Q after cs₂ := by
  induction before generalizing cs with
  | nil =>
      cases h with
      | @cons _ c _ cs₂ hb hafter => exact ⟨c, [], cs₂, rfl, .nil, hb, hafter⟩
  | cons a before ih =>
      cases h with
      | @cons _ d _ rest ha hrest =>
          obtain ⟨c, cs₁, cs₂, rfl, hbefore, hb, hafter⟩ := ih hrest
          exact ⟨c, d :: cs₁, cs₂, rfl, .cons ha hbefore, hb, hafter⟩

namespace Pool

variable (R : PoolRules I α σ)

/-- One step of the pool. -/
inductive Step : Pool I α σ → Pool I α σ → Prop
  | act {s s' : σ} {before after : List (Program I α)} {ended : List α} {op : I.Op}
      {next : I.Reply op → Program I α} {r : I.Reply op} (h : R.step s op r s') :
      Step ⟨s, before ++ .request op next :: after, ended⟩ ⟨s', before ++ next r :: after, ended⟩
  | finish {s : σ} {before after : List (Program I α)} {ended : List α} {a : α} :
      Step ⟨s, before ++ .done a :: after, ended⟩ ⟨s, before ++ after, a :: ended⟩
  | crash {s : σ} {before after : List (Program I α)} {ended : List α} {p : Program I α} :
      Step ⟨s, before ++ p :: after, ended⟩ ⟨s, before ++ after, ended⟩
  | start {s s' : σ} {threads : List (Program I α)} {ended : List α} {p : Program I α}
      (h : R.starts s p s') : Step ⟨s, threads, ended⟩ ⟨s', p :: threads, ended⟩
  | env {s s' : σ} {threads : List (Program I α)} {ended : List α} (h : R.env s s') :
      Step ⟨s, threads, ended⟩ ⟨s', threads, ended⟩

/-- The pools that steps lead to. -/
abbrev Reachable : Pool I α σ → Pool I α σ → Prop := Relation.ReflTransGen (Step R)

variable {R}

/-- Programs that may start in a state that their start leaves alone. -/
theorem start_all {s : σ} {threads : List (Program I α)} {ended : List α}
    (h : ∀ p ∈ threads, R.starts s p s) : Reachable R ⟨s, [], ended⟩ ⟨s, threads, ended⟩ := by
  induction threads with
  | nil => exact .refl
  | cons p threads ih =>
      have hrest := ih (fun q hq => h q (List.mem_cons_of_mem p hq))
      exact hrest.tail (.start (h p List.mem_cons_self))

/-- The next request of thread `i` is answered; a thread that waits or has ended stays. -/
def advance (S : Strategy R.step) (P : Pool I α σ) (i : ℕ) : Pool I α σ :=
  match P.threads[i]? with
  | some (.request op next) =>
      match S.act op P.state with
      | some (r, s') => { P with state := s', threads := P.threads.set i (next r) }
      | none => P
  | _ => P

/-- The pool after the threads of a schedule have been served in its order. -/
def follow (S : Strategy R.step) (P : Pool I α σ) (schedule : List ℕ) : Pool I α σ :=
  schedule.foldl (advance S) P

/-- Serving a thread is a step, unless the thread waits or has ended. -/
theorem advance_step (S : Strategy R.step) (P : Pool I α σ) (i : ℕ) :
    P.advance S i = P ∨ Step R P (P.advance S i) := by
  unfold advance
  split
  next op next hi =>
    split
    next r s' hact =>
      obtain ⟨hlt, hget⟩ := List.getElem?_eq_some_iff.mp hi
      have hthreads : P.threads = P.threads.take i ++ .request op next :: P.threads.drop (i + 1) := by
        rw [← hget, List.cons_getElem_drop_succ, List.take_append_drop]
      have hset : P.threads.set i (next r) =
          P.threads.take i ++ next r :: P.threads.drop (i + 1) :=
        List.set_eq_take_append_cons_drop.trans (if_pos hlt)
      obtain ⟨s, threads, ended⟩ := P
      dsimp only at hthreads hset hact ⊢
      rw [hset]
      right
      nth_rewrite 1 [hthreads]
      exact .act (S.sound hact)
    next => exact .inl rfl
  next => exact .inl rfl

theorem advance_reachable (S : Strategy R.step) (P : Pool I α σ) (i : ℕ) :
    Reachable R P (P.advance S i) := by
  rcases advance_step S P i with heq | hstep
  · rw [heq]
  · exact .single hstep

theorem follow_reachable (S : Strategy R.step) (P : Pool I α σ) (schedule : List ℕ) :
    Reachable R P (P.follow S schedule) := by
  induction schedule generalizing P with
  | nil => exact .refl
  | cons i schedule ih => exact (advance_reachable S P i).trans (ih _)

/-- A program that has come to its end can be taken down. -/
theorem ended_of_done {P : Pool I α σ} {a : α} (h : .done a ∈ P.threads) :
    ∃ P', Reachable R P P' ∧ P'.state = P.state ∧ a ∈ P'.ended := by
  obtain ⟨s, threads, ended⟩ := P
  obtain ⟨before, after, hthreads⟩ := List.append_of_mem h
  dsimp only at hthreads
  subst hthreads
  exact ⟨⟨s, before ++ after, a :: ended⟩, .single .finish, rfl, List.mem_cons_self⟩

/-- Programs that have all come to their end can be taken down. -/
theorem all_ended {P : Pool I α σ} {as : List α} (h : P.threads.map Program.result = as.map some) :
    ∃ P', Reachable R P P' ∧ P'.state = P.state ∧ P'.ended = as.reverse ++ P.ended := by
  induction as generalizing P with
  | nil => exact ⟨P, .refl, rfl, rfl⟩
  | cons a as ih =>
      obtain ⟨s, threads, ended⟩ := P
      obtain ⟨p, rest, rfl, hp, hrest⟩ := List.map_eq_cons_iff.mp h
      cases p with
      | done b =>
          obtain rfl : b = a := Option.some.inj hp
          obtain ⟨P', hreach, hstate, hended⟩ := @ih ⟨s, rest, b :: ended⟩ hrest
          refine ⟨P', .head (@Step.finish _ _ _ _ s [] rest ended b) hreach, hstate, ?_⟩
          rw [hended, List.reverse_cons, List.append_assoc, List.singleton_append]
      | request op next => cases hp

/-- What holds at the start holds in every reachable pool, when programs only make requests
that keep it, whatever replies a state that has it gives them. -/
theorem invariant_of_asks {A : (op : I.Op) → I.Reply op → Prop} {Q : I.Op → Prop}
    {inv : σ → Prop} {P P' : Pool I α σ}
    (hreply : ∀ s op r s', inv s → R.step s op r s' → A op r)
    (hstep : ∀ s op r s', inv s → Q op → R.step s op r s' → inv s')
    (hstarts : ∀ s p s', inv s → R.starts s p s' → inv s' ∧ p.Asks A Q (fun _ => True))
    (henv : ∀ s s', inv s → R.env s s' → inv s') (hinv : inv P.state)
    (hthreads : ∀ p ∈ P.threads, p.Asks A Q (fun _ => True)) (hr : Reachable R P P') : inv P'.state := by
  suffices h : inv P'.state ∧ ∀ p ∈ P'.threads, p.Asks A Q (fun _ => True) from h.1
  induction hr with
  | refl => exact ⟨hinv, hthreads⟩
  | tail _ hs ih =>
      obtain ⟨hinv', hall⟩ := ih
      cases hs with
      | @act s s' before after ended op next r h =>
          have hp : (Program.request op next).Asks A Q (fun _ => True) :=
            hall _ (List.mem_append_right _ List.mem_cons_self)
          refine ⟨hstep _ _ _ _ hinv' hp.1 h, ?_⟩
          intro p hmem
          rcases List.mem_append.mp hmem with hmem | hmem
          · exact hall p (List.mem_append_left _ hmem)
          · rcases List.mem_cons.mp hmem with rfl | hmem
            · exact hp.2 r (hreply _ _ _ _ hinv' h)
            · exact hall p (List.mem_append_right _ (List.mem_cons_of_mem _ hmem))
      | @finish s before after ended a =>
          refine ⟨hinv', ?_⟩
          intro p hmem
          rcases List.mem_append.mp hmem with hmem | hmem
          · exact hall p (List.mem_append_left _ hmem)
          · exact hall p (List.mem_append_right _ (List.mem_cons_of_mem _ hmem))
      | @crash s before after ended q =>
          refine ⟨hinv', ?_⟩
          intro p hmem
          rcases List.mem_append.mp hmem with hmem | hmem
          · exact hall p (List.mem_append_left _ hmem)
          · exact hall p (List.mem_append_right _ (List.mem_cons_of_mem _ hmem))
      | @start s s' threads ended q h =>
          obtain ⟨hinv', hq⟩ := hstarts _ _ _ hinv' h
          refine ⟨hinv', ?_⟩
          intro p hmem
          rcases List.mem_cons.mp hmem with rfl | hmem
          · exact hq
          · exact hall p hmem
      | @env s s' threads ended h => exact ⟨henv _ _ hinv' h, hall⟩

variable {M : Type} [AddCommMonoid M] {inv : σ → M → Prop} {grows : σ → σ → Prop}
  {post : α → σ → Prop}

/-- All programs are safe with what each of them owns, the invariant holds of the state and
everything owned, and all values are what they should be. -/
structure Ok (R : PoolRules I α σ) (inv : σ → M → Prop) (grows : σ → σ → Prop)
    (post : α → σ → Prop) (P : Pool I α σ) (owned : List M) : Prop where
  invariant : inv P.state owned.sum
  threads : List.Forall₂ (fun p m => Safe R.step inv grows grows (fun a s _ => post a s) p P.state m)
    P.threads owned
  ended : ∀ a ∈ P.ended, post a P.state

/-- What the rules owe: `grows` is a preorder that `post` survives, what a program owns can be
dropped, and what starts or changes the state from outside respects the invariant. -/
structure Sound (R : PoolRules I α σ) (inv : σ → M → Prop) (grows : σ → σ → Prop)
    (post : α → σ → Prop) : Prop where
  refl : ∀ s, grows s s
  trans : ∀ {a b c}, grows a b → grows b c → grows a c
  stable : ∀ a s s', grows s s' → post a s → post a s'
  drop : ∀ s m m', inv s (m + m') → inv s m'
  starts : ∀ s p s' m, inv s m → R.starts s p s' → grows s s' ∧
    ∃ m', inv s' (m' + m) ∧ Safe R.step inv grows grows (fun a s _ => post a s) p s' m'
  env : ∀ s s' m, inv s m → R.env s s' → inv s' m ∧ grows s s'

theorem forall₂_grow {s s' : σ} {threads : List (Program I α)} {owned : List M}
    (hR : Sound R inv grows post) (hgrow : grows s s')
    (h : List.Forall₂ (fun p m => Safe R.step inv grows grows (fun a s _ => post a s) p s m)
      threads owned) :
    List.Forall₂ (fun p m => Safe R.step inv grows grows (fun a s _ => post a s) p s' m)
      threads owned := by
  refine h.imp ?_
  intro p m hp
  exact hp.stable hgrow hR.trans (fun a s s' _ hs ha => hR.stable a s s' hs ha)

theorem Ok.step {P P' : Pool I α σ} {owned : List M} (hR : Sound R inv grows post)
    (h : Ok R inv grows post P owned) (hs : Step R P P') : ∃ owned', Ok R inv grows post P' owned' := by
  cases hs with
  | @act s s' before after ended op next r hstep =>
      obtain ⟨m, owned₁, owned₂, rfl, hbefore, hp, hafter⟩ := forall₂_around h.threads
      have hinv : inv s (m + (owned₁.sum + owned₂.sum)) := by
        have := h.invariant
        rw [List.sum_append, List.sum_cons] at this
        rwa [add_left_comm] at this
      obtain ⟨m', hinv', hgrow, hrest⟩ := hp s _ r s' (hR.refl s) hinv hstep
      refine ⟨owned₁ ++ m' :: owned₂, ?_, ?_, ?_⟩
      · rw [List.sum_append, List.sum_cons, add_left_comm]
        exact hinv'
      · exact List.rel_append (forall₂_grow hR hgrow hbefore)
          (.cons hrest (forall₂_grow hR hgrow hafter))
      · intro a ha
        exact hR.stable a s s' hgrow (h.ended a ha)
  | @finish s before after ended a =>
      obtain ⟨m, owned₁, owned₂, rfl, hbefore, hp, hafter⟩ := forall₂_around h.threads
      refine ⟨owned₁ ++ owned₂, ?_, List.rel_append hbefore hafter, ?_⟩
      · refine hR.drop s m _ ?_
        have := h.invariant
        rw [List.sum_append, List.sum_cons, add_left_comm] at this
        rwa [List.sum_append]
      · intro b hb
        rcases List.mem_cons.mp hb with rfl | hb
        · exact hp
        · exact h.ended b hb
  | @crash s before after ended q =>
      obtain ⟨m, owned₁, owned₂, rfl, hbefore, _, hafter⟩ := forall₂_around h.threads
      refine ⟨owned₁ ++ owned₂, ?_, List.rel_append hbefore hafter, h.ended⟩
      refine hR.drop s m _ ?_
      have := h.invariant
      rw [List.sum_append, List.sum_cons, add_left_comm] at this
      rwa [List.sum_append]
  | @start s s' threads ended q hstart =>
      obtain ⟨hgrow, m', hinv, hsafe⟩ := hR.starts s q s' _ h.invariant hstart
      refine ⟨m' :: owned, by rwa [List.sum_cons], .cons hsafe (forall₂_grow hR hgrow h.threads), ?_⟩
      intro a ha
      exact hR.stable a s s' hgrow (h.ended a ha)
  | @env s s' threads ended henv =>
      obtain ⟨hinv, hgrow⟩ := hR.env s s' _ h.invariant henv
      refine ⟨owned, hinv, forall₂_grow hR hgrow h.threads, ?_⟩
      intro a ha
      exact hR.stable a s s' hgrow (h.ended a ha)

/-- A step of such a pool changes its state within `grows`. -/
theorem Ok.grown {P P' : Pool I α σ} {owned : List M} (hR : Sound R inv grows post)
    (h : Ok R inv grows post P owned) (hs : Step R P P') : grows P.state P'.state := by
  cases hs with
  | @act s s' before after ended op next r hstep =>
      obtain ⟨m, owned₁, owned₂, rfl, -, hp, -⟩ := forall₂_around h.threads
      have hinv : inv s (m + (owned₁.sum + owned₂.sum)) := by
        have := h.invariant
        rw [List.sum_append, List.sum_cons] at this
        rwa [add_left_comm] at this
      obtain ⟨m', -, hgrow, -⟩ := hp s _ r s' (hR.refl s) hinv hstep
      exact hgrow
  | finish => exact hR.refl _
  | crash => exact hR.refl _
  | start hstart => exact (hR.starts _ _ _ _ h.invariant hstart).1
  | env henv => exact (hR.env _ _ _ h.invariant henv).2

/-- **Safety of concurrent programs.** -/
theorem ok_of_reachable {P P' : Pool I α σ} {owned : List M} (hR : Sound R inv grows post)
    (h : Ok R inv grows post P owned) (hr : Reachable R P P') :
    ∃ owned', Ok R inv grows post P' owned' := by
  induction hr with
  | refl => exact ⟨owned, h⟩
  | tail _ hs ih =>
      obtain ⟨owned₁, h₁⟩ := ih
      exact h₁.step hR hs

theorem grows_of_reachable {P P' : Pool I α σ} {owned : List M} (hR : Sound R inv grows post)
    (h : Ok R inv grows post P owned) (hr : Reachable R P P') : grows P.state P'.state := by
  induction hr with
  | refl => exact hR.refl _
  | tail hr hs ih =>
      obtain ⟨owned₁, h₁⟩ := ok_of_reachable hR h hr
      exact hR.trans ih (h₁.grown hR hs)

end Pool

end Lib
