import CrazyHarness.Lib.Pool

/-! # Progress of concurrent programs

`Pool.Lives` is a step in which no program dies.  `PoolRules.answeredBy` runs a pool with every request
answered by a strategy that is fixed beforehand and with nothing from outside: what such a pool can be led to
does not depend on choosing the replies.

`lives_act`, `lives_finish` and `lives_start` lead a pool on; `Lives.cases` says what such a step was. -/

namespace Lib

open Program

variable {I : Interface} {α σ : Type}

/-- The strategy answers whatever can be answered. -/
def Program.Strategy.Complete {step : σ → (op : I.Op) → I.Reply op → σ → Prop} (S : Strategy step) : Prop :=
  ∀ op s, (∃ r s', step s op r s') → ∃ r, S.act op s = some r

/-- Every request is answered by the strategy. -/
def PoolRules.answeredBy (R : PoolRules I α σ) (S : Strategy R.step) : PoolRules I α σ where
  step s op r s' := S.act op s = some (r, s')
  starts := R.starts
  env _ _ := False

/-- Two elements of a list, at one place or one before the other. -/
theorem two_places {β : Type*} {before after before' after' : List β} {a b : β}
    (h : before ++ a :: after = before' ++ b :: after') :
    (before' = before ∧ b = a ∧ after' = after) ∨
      (∃ l, after = l ++ b :: after' ∧ before' = before ++ a :: l) ∨
      ∃ l, before = before' ++ b :: l ∧ after' = l ++ a :: after := by
  induction before generalizing before' with
  | nil =>
      cases before' with
      | nil =>
          obtain ⟨rfl, rfl⟩ := List.cons.inj h
          exact .inl ⟨rfl, rfl, rfl⟩
      | cons c before' =>
          obtain ⟨rfl, rfl⟩ := List.cons.inj h
          exact .inr (.inl ⟨before', rfl, rfl⟩)
  | cons c before ih =>
      cases before' with
      | nil =>
          obtain ⟨rfl, rfl⟩ := List.cons.inj h
          exact .inr (.inr ⟨before, rfl, rfl⟩)
      | cons d before' =>
          obtain ⟨rfl, htail⟩ := List.cons.inj h
          rcases ih htail with ⟨rfl, rfl, rfl⟩ | ⟨l, rfl, rfl⟩ | ⟨l, rfl, rfl⟩
          · exact .inl ⟨rfl, rfl, rfl⟩
          · exact .inr (.inl ⟨l, rfl, rfl⟩)
          · exact .inr (.inr ⟨l, rfl, rfl⟩)

namespace Pool

/-- The programs that have been started and have not died. -/
def alive (P : Pool I α σ) : ℕ := P.threads.length + P.ended.length

variable (R : PoolRules I α σ)

/-- A step in which no program dies. -/
def Lives (P P' : Pool I α σ) : Prop := Step R P P' ∧ P.alive ≤ P'.alive

/-- Where such steps lead. -/
abbrev LivesTo : Pool I α σ → Pool I α σ → Prop := Relation.ReflTransGen (Lives R)

variable {R}

theorem lives_act {S : Strategy R.step} {s s' : σ} {before after : List (Program I α)} {ended : List α}
    {op : I.Op} {next : I.Reply op → Program I α} {r : I.Reply op} (h : S.act op s = some (r, s')) :
    Lives (R.answeredBy S) ⟨s, before ++ .request op next :: after, ended⟩
      ⟨s', before ++ next r :: after, ended⟩ := by
  refine ⟨.act h, ?_⟩
  simp [alive]

theorem lives_finish {s : σ} {before after : List (Program I α)} {ended : List α} {a : α} :
    Lives R ⟨s, before ++ .done a :: after, ended⟩ ⟨s, before ++ after, a :: ended⟩ := by
  refine ⟨.finish, ?_⟩
  simp only [alive, List.length_append, List.length_cons]
  omega

theorem lives_start {s s' : σ} {threads : List (Program I α)} {ended : List α} {p : Program I α}
    (h : R.starts s p s') : Lives R ⟨s, threads, ended⟩ ⟨s', p :: threads, ended⟩ := by
  refine ⟨.start h, ?_⟩
  simp only [alive, List.length_cons]
  omega

/-- What a step is in which no program dies. -/
theorem Lives.cases {P P' : Pool I α σ} (h : Lives R P P') :
    (∃ before op next after r, P.threads = before ++ .request op next :: after ∧
        R.step P.state op r P'.state ∧ P'.threads = before ++ next r :: after ∧ P'.ended = P.ended) ∨
      (∃ before a after, P.threads = before ++ .done a :: after ∧ P'.state = P.state ∧
        P'.threads = before ++ after ∧ P'.ended = a :: P.ended) ∨
      (∃ p, R.starts P.state p P'.state ∧ P'.threads = p :: P.threads ∧ P'.ended = P.ended) ∨
      (R.env P.state P'.state ∧ P'.threads = P.threads ∧ P'.ended = P.ended) := by
  obtain ⟨hs, halive⟩ := h
  cases hs with
  | @act s s' before after ended op next r h => exact .inl ⟨before, op, next, after, r, rfl, h, rfl, rfl⟩
  | @finish s before after ended a => exact .inr (.inl ⟨before, a, after, rfl, rfl, rfl, rfl⟩)
  | crash =>
      simp only [alive, List.length_append, List.length_cons] at halive
      omega
  | @start s s' threads ended p h => exact .inr (.inr (.inl ⟨p, h, rfl, rfl⟩))
  | env h => exact .inr (.inr (.inr ⟨h, rfl, rfl⟩))

end Pool

end Lib
