import CrazyHarness.Lib.Pool

/-! # Windows

A program looks at something and acts on it some steps later; in between others may change it.

* `Heads`: the program can still come to act on a target without another look at it.
* `Careful`: the program acts only on what its last look has allowed, or, before any look, on what meets a
  condition; `careful_bind` composes it.
* `Pool.Calm`: a step leaves to the programs after it the room for what they head for.
* `Pool.invariant_of_calm`: in a run of calm steps careful programs keep what acts with room keep. -/

namespace Lib

variable {I : Interface} {α β τ σ : Type}

/-- What programs do and look at: the replies they may get, the targets that a request acts on and those it
looks at, and what a reply to a look allows. -/
structure Sight (I : Interface) (τ : Type) where
  replies : (op : I.Op) → I.Reply op → Prop
  acts : I.Op → τ → Prop
  looks : I.Op → τ → Prop
  allows : (op : I.Op) → I.Reply op → τ → Prop

/-- What a program may act on after a reply, when it was `Q` before. -/
def Sight.after (V : Sight I τ) (op : I.Op) (r : I.Reply op) (Q : τ → Prop) (t : τ) : Prop :=
  (V.looks op t ∧ V.allows op r t) ∨ (¬ V.looks op t ∧ Q t)

/-- The request acts within `Q` and looks at nothing. -/
def Sight.Blind (V : Sight I τ) (Q : τ → Prop) (op : I.Op) : Prop :=
  (∀ t, V.acts op t → Q t) ∧ ∀ t, ¬ V.looks op t

namespace Program

variable (V : Sight I τ)

/-- Some replies lead the program to act on the target by the request, without another look at it. -/
def Heads : Program I α → I.Op → τ → Prop
  | done _, _, _ => False
  | request op next, op', t =>
      (op = op' ∧ V.acts op t) ∨ (¬ V.looks op t ∧ ∃ r, V.replies op r ∧ Heads (next r) op' t)

/-- Whatever the replies, the program acts on what a look has allowed, or on what is in `Q` and was not
looked at. -/
def Careful : Program I α → (τ → Prop) → Prop
  | done _, _ => True
  | request op next, Q =>
      (∀ t, V.acts op t → Q t) ∧ ∀ r, V.replies op r → Careful (next r) (V.after op r Q)

variable {V} {p : Program I α} {f : α → Program I β} {Q Q' : τ → Prop}

theorem Careful.mono (h : p.Careful V Q) (hQ : ∀ t, Q t → Q' t) : p.Careful V Q' := by
  induction p generalizing Q Q' with
  | done a => trivial
  | request op next ih =>
      refine ⟨fun t ht => hQ t (h.1 t ht), fun r hr => ih r (h.2 r hr) ?_⟩
      rintro t (hlook | ⟨hno, ht⟩)
      · exact .inl hlook
      · exact .inr ⟨hno, hQ t ht⟩

/-- What a careful program heads for. -/
theorem Careful.heads (h : p.Careful V Q) {op : I.Op} {t : τ} (hheads : p.Heads V op t) : Q t := by
  induction p generalizing Q with
  | done a => exact hheads.elim
  | request op' next ih =>
      rcases hheads with ⟨-, hacts⟩ | ⟨hno, r, hr, hrest⟩
      · exact h.1 t hacts
      · rcases ih r (h.2 r hr) hrest with ⟨hlook, -⟩ | ⟨-, ht⟩
        · exact absurd hlook hno
        · exact ht

/-- First code that looks at nothing. -/
theorem careful_bind {post : α → Prop} (h : p.Asks V.replies (V.Blind Q) post)
    (hf : ∀ a, post a → (f a).Careful V Q) : (p.bind f).Careful V Q := by
  induction p with
  | done a => exact hf a h
  | request op next ih =>
      refine ⟨h.1.1, fun r hr => (ih r (h.2 r hr)).mono ?_⟩
      exact fun t ht => .inr ⟨h.1.2 t, ht⟩

/-- Code that does not act is careful. -/
theorem careful_of_idle {post : α → Prop} (h : p.Asks V.replies (fun op => ∀ t, ¬ V.acts op t) post) :
    p.Careful V Q := by
  induction p generalizing Q with
  | done a => trivial
  | request op next ih => exact ⟨fun t ht => absurd ht (h.1 t), fun r hr => ih r (h.2 r hr)⟩

end Program

namespace Pool

open Program

variable {R : PoolRules I α σ} {V : Sight I τ} {room fits : σ → I.Op → τ → Prop}

/-- After the step the programs have the room that they had for what they head for, and what they head for
fits the state. -/
structure Calm (V : Sight I τ) (room fits : σ → I.Op → τ → Prop) (P P' : Pool I α σ) : Prop where
  kept : ∀ p ∈ P'.threads, ∀ op t, p.Heads V op t → room P.state op t → room P'.state op t
  fits : ∀ p ∈ P'.threads, ∀ op t, p.Heads V op t → fits P'.state op t

/-- The pools that calm steps lead to. -/
abbrev CalmReachable (R : PoolRules I α σ) (V : Sight I τ) (room fits : σ → I.Op → τ → Prop) :
    Pool I α σ → Pool I α σ → Prop :=
  Relation.ReflTransGen (fun P P' => Step R P P' ∧ Calm V room fits P P')

/-- What the rules owe: the replies are known, a look that allows an act finds room for it, acts with room
keep the invariant, and what starts is careful and has room. -/
structure Windowed (R : PoolRules I α σ) (V : Sight I τ) (room fits : σ → I.Op → τ → Prop) (inv : σ → Prop) :
    Prop where
  replies : ∀ s op r s', inv s → R.step s op r s' → V.replies op r
  looks : ∀ s op r s', inv s → R.step s op r s' → ∀ op' t, V.looks op t → V.allows op r t → fits s' op' t →
    room s' op' t
  step : ∀ s op r s', inv s → R.step s op r s' → (∀ t, V.acts op t → room s op t) → inv s'
  starts : ∀ s p s', inv s → R.starts s p s' → inv s' ∧ (∃ Q, p.Careful V Q) ∧
    ∀ op t, p.Heads V op t → room s' op t
  env : ∀ s s', inv s → R.env s s' → inv s'

/-- **Runs of calm steps** keep the invariant. -/
theorem invariant_of_calm {inv : σ → Prop} (hw : Windowed R V room fits inv) {P P' : Pool I α σ}
    (hr : CalmReachable R V room fits P P') (hinv : inv P.state) (hthreads : P.threads = []) :
    inv P'.state := by
  -- Every program is careful, and there is room for whatever it heads for.
  suffices h : inv P'.state ∧ ∀ p ∈ P'.threads, (∃ Q, p.Careful V Q) ∧
      ∀ op t, p.Heads V op t → room P'.state op t from h.1
  induction hr with
  | refl =>
      refine ⟨hinv, fun p hp => ?_⟩
      rw [hthreads] at hp
      cases hp
  | tail _ hs ih =>
      obtain ⟨hinv', hall⟩ := ih
      obtain ⟨hstep, hcalm⟩ := hs
      cases hstep with
      | @act s s' before after ended op next r h =>
          obtain ⟨⟨Q, hcareful⟩, hroom⟩ := hall (.request op next)
            (List.mem_append_right _ List.mem_cons_self)
          have hreply := hw.replies _ _ _ _ hinv' h
          refine ⟨hw.step _ _ _ _ hinv' h (fun t ht => hroom op t (.inl ⟨rfl, ht⟩)), ?_⟩
          -- The others keep their room, as does what the program itself has not looked at.
          have hkept : ∀ p ∈ before ++ next r :: after, ∀ op t, p.Heads V op t → room s op t → room s' op t :=
            hcalm.kept
          have hothers : ∀ p ∈ before ++ after, (∃ Q, p.Careful V Q) ∧
              ∀ op t, p.Heads V op t → room s' op t := by
            intro p hmem
            have hbefore : p ∈ before ++ Program.request op next :: after := by
              simp only [List.mem_append, List.mem_cons] at hmem ⊢
              tauto
            have hafter : p ∈ before ++ next r :: after := by
              simp only [List.mem_append, List.mem_cons] at hmem ⊢
              tauto
            obtain ⟨hp, hproom⟩ := hall p hbefore
            exact ⟨hp, fun op t ht => hkept p hafter op t ht (hproom op t ht)⟩
          intro p hmem
          have hcases : p = next r ∨ p ∈ before ++ after := by
            simp only [List.mem_append, List.mem_cons] at hmem ⊢
            tauto
          rcases hcases with rfl | hmem'
          · refine ⟨⟨_, hcareful.2 r hreply⟩, ?_⟩
            intro op' t ht
            by_cases hlook : V.looks op t
            · rcases (hcareful.2 r hreply).heads ht with ⟨-, hallows⟩ | ⟨hno, -⟩
              · exact hw.looks _ _ _ _ hinv' h op' t hlook hallows (hcalm.fits _ hmem op' t ht)
              · exact absurd hlook hno
            · exact hkept _ hmem op' t ht (hroom op' t (.inr ⟨hlook, r, hreply, ht⟩))
          · exact hothers p hmem'
      | @finish s before after ended a =>
          refine ⟨hinv', fun p hmem => hall p ?_⟩
          simp only [List.mem_append, List.mem_cons] at hmem ⊢
          tauto
      | @crash s before after ended q =>
          refine ⟨hinv', fun p hmem => hall p ?_⟩
          simp only [List.mem_append, List.mem_cons] at hmem ⊢
          tauto
      | @start s s' threads ended q h =>
          obtain ⟨hinv', hcareful, hroom⟩ := hw.starts _ _ _ hinv' h
          refine ⟨hinv', ?_⟩
          intro p hmem
          rcases List.mem_cons.mp hmem with rfl | hold
          · exact ⟨hcareful, hroom⟩
          · obtain ⟨hp, hproom⟩ := hall p hold
            exact ⟨hp, fun op t ht => hcalm.kept p hmem op t ht (hproom op t ht)⟩
      | @env s s' threads ended h =>
          refine ⟨hw.env _ _ hinv' h, ?_⟩
          intro p hmem
          obtain ⟨hp, hproom⟩ := hall p hmem
          exact ⟨hp, fun op t ht => hcalm.kept p hmem op t ht (hproom op t ht)⟩

/-- The other threads wait. -/
theorem threads_advance_ne (S : Strategy R.step) (P : Pool I α σ) {i j : ℕ} (h : j ≠ i) :
    (P.advance S i).threads[j]? = P.threads[j]? := by
  unfold advance
  split
  · split
    · exact List.getElem?_set_ne (Ne.symm h)
    · rfl
  · rfl

/-- A schedule whose steps are calm. -/
theorem calmReachable_follow (S : Strategy R.step) {P : Pool I α σ} {schedule : List ℕ}
    (h : ∀ n i, schedule[n]? = some i →
      Calm V room fits (P.follow S (schedule.take n)) ((P.follow S (schedule.take n)).advance S i)) :
    CalmReachable R V room fits P (P.follow S schedule) := by
  induction schedule generalizing P with
  | nil => exact .refl
  | cons i schedule ih =>
      have hrest : CalmReachable R V room fits (P.advance S i) ((P.advance S i).follow S schedule) :=
        ih (fun n j hj => h (n + 1) j (by simpa using hj))
      rcases advance_step S P i with heq | hstep
      · rw [heq] at hrest
        rw [follow, List.foldl_cons, heq]
        exact hrest
      · exact .head ⟨hstep, h 0 i rfl⟩ hrest

end Pool

end Lib
