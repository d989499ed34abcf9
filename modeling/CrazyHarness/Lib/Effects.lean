import Mathlib

/-! # Programs that raise over a state

Programs of `EStateM ε σ`: they return or raise, and either way leave a state.  A raise does not take
back what was written before it, so what survives one is a property of the program.

* `Keeps f p`: `p` leaves the part `f` of the state alone, whether it returns or raises.
* `Grows f p`: `p` does not make the part `f` smaller, whether it returns or raises.
* `RaisesClean f p`: where `p` raises, the part `f` is as it was.  `RaisesClean.bind` is the rule for
  programs that check first and write last. -/

namespace Lib

universe u v

variable {ε σ α β : Type u} {γ : Type v}

/-- The state after the program, whether it returned or raised. -/
def finalState (p : EStateM ε σ α) (s : σ) : σ :=
  match p s with
  | .ok _ s' => s'
  | .error _ s' => s'

@[simp] theorem estate_pure (a : α) (s : σ) : (pure a : EStateM ε σ α) s = .ok a s := rfl

@[simp] theorem estate_throw (e : ε) (s : σ) : (throw e : EStateM ε σ α) s = .error e s := rfl

@[simp] theorem estate_get (s : σ) : (get : EStateM ε σ σ) s = .ok s s := rfl

@[simp] theorem estate_modify (f : σ → σ) (s : σ) :
    (modify f : EStateM ε σ PUnit) s = .ok ⟨⟩ (f s) := rfl

theorem estate_bind (p : EStateM ε σ α) (q : α → EStateM ε σ β) (s : σ) :
    (p >>= q) s = match p s with
      | .ok a s' => q a s'
      | .error e s' => .error e s' := rfl

/-- A sequence returns when both its parts do. -/
theorem estate_bind_ok {p : EStateM ε σ α} {q : α → EStateM ε σ β} {s s'' : σ} {b : β} :
    (p >>= q) s = .ok b s'' ↔ ∃ a s', p s = .ok a s' ∧ q a s' = .ok b s'' := by
  rw [estate_bind]
  cases hp : p s with
  | ok a s' =>
      constructor
      · intro h
        exact ⟨a, s', rfl, h⟩
      · rintro ⟨a', s₁, h, hq⟩
        cases h
        exact hq
  | error e s' =>
      constructor
      · intro h
        cases h
      · rintro ⟨a', s₁, h, _⟩
        cases h

/-- A sequence raises when its first part does, or its second after the first has returned. -/
theorem estate_bind_error {p : EStateM ε σ α} {q : α → EStateM ε σ β} {s s'' : σ} {e : ε} :
    (p >>= q) s = .error e s'' ↔
      p s = .error e s'' ∨ ∃ a s', p s = .ok a s' ∧ q a s' = .error e s'' := by
  rw [estate_bind]
  cases hp : p s with
  | ok a s' =>
      constructor
      · intro h
        exact .inr ⟨a, s', rfl, h⟩
      · rintro (h | ⟨a', s₁, h, hq⟩)
        · cases h
        · cases h
          exact hq
  | error e' s' =>
      constructor
      · intro h
        cases h
        exact .inl rfl
      · rintro (h | ⟨a', s₁, h, _⟩)
        · cases h
          rfl
        · cases h

theorem estate_discard_ok {p : EStateM ε σ α} {s s' : σ} {u : PUnit} :
    (discard p) s = .ok u s' ↔ ∃ a, p s = .ok a s' := by
  have hdiscard : (discard p) s = match p s with
      | .ok _ s' => .ok ⟨⟩ s'
      | .error e s' => .error e s' := rfl
  rw [hdiscard]
  cases hp : p s with
  | ok a s₁ =>
      constructor
      · intro h
        cases h
        exact ⟨a, rfl⟩
      · rintro ⟨a', h⟩
        cases h
        rfl
  | error e s₁ =>
      constructor
      · intro h
        cases h
      · rintro ⟨a', h⟩
        cases h

theorem estate_discard_error {p : EStateM ε σ α} {s s' : σ} {e : ε} :
    (discard p) s = .error e s' ↔ p s = .error e s' := by
  have hdiscard : (discard p) s = match p s with
      | .ok _ s' => .ok ⟨⟩ s'
      | .error e s' => .error e s' := rfl
  rw [hdiscard]
  cases hp : p s with
  | ok a s₁ =>
      constructor <;>
        · intro h
          cases h
  | error e s₁ =>
      constructor <;>
        · intro h
          cases h
          rfl

/-- Raise `e` unless `p` holds. -/
def require (p : Prop) [Decidable p] (e : ε) : EStateM ε σ PUnit :=
  if p then pure ⟨⟩ else throw e

theorem require_ok {p : Prop} [Decidable p] {e : ε} {s s' : σ} {u : PUnit} :
    require p e s = .ok u s' ↔ p ∧ s = s' := by
  unfold require
  by_cases h : p
  · rw [if_pos h]
    constructor
    · intro hok
      cases hok
      exact ⟨h, rfl⟩
    · rintro ⟨_, rfl⟩
      rfl
  · rw [if_neg h]
    constructor
    · intro hok
      cases hok
    · rintro ⟨hp, _⟩
      exact absurd hp h

/-- The value, or raise `e` where there is none. -/
def orRaise (o : Option α) (e : ε) : EStateM ε σ α :=
  match o with
  | some a => pure a
  | none => throw e

theorem orRaise_ok {o : Option α} {e : ε} {s s' : σ} {a : α} :
    orRaise o e s = .ok a s' ↔ o = some a ∧ s = s' := by
  cases o with
  | none =>
      constructor
      · intro h
        cases h
      · rintro ⟨h, _⟩
        cases h
  | some b =>
      constructor
      · intro h
        cases h
        exact ⟨rfl, rfl⟩
      · rintro ⟨h, rfl⟩
        cases h
        rfl

/-! ### What a program leaves alone -/

/-- The part `f` of the state is as it was, whether the program returns or raises. -/
def Keeps (f : σ → γ) (p : EStateM ε σ α) : Prop := ∀ s, f (finalState p s) = f s

/-- The part `f` of the state does not get smaller, whether the program returns or raises. -/
def Grows [Preorder γ] (f : σ → γ) (p : EStateM ε σ α) : Prop := ∀ s, f s ≤ f (finalState p s)

/-- Where the program raises, the part `f` of the state is as it was. -/
def RaisesClean (f : σ → γ) (p : EStateM ε σ α) : Prop := ∀ s e s', p s = .error e s' → f s' = f s

/-- The program does not raise. -/
def NeverRaises (p : EStateM ε σ α) : Prop := ∀ s e s', p s ≠ .error e s'

variable {f : σ → γ} {p : EStateM ε σ α} {q : α → EStateM ε σ β}

theorem Keeps.of_ok (h : Keeps f p) {s s' : σ} {a : α} (hp : p s = .ok a s') : f s' = f s := by
  have hs := h s
  rwa [finalState, hp] at hs

theorem Keeps.raisesClean (h : Keeps f p) : RaisesClean f p := by
  intro s e s' hp
  have hs := h s
  rwa [finalState, hp] at hs

theorem NeverRaises.raisesClean (h : NeverRaises p) : RaisesClean f p :=
  fun s e s' hp => absurd hp (h s e s')

theorem keeps_pure (a : α) : Keeps f (pure a : EStateM ε σ α) := fun _ => rfl

theorem keeps_throw (e : ε) : Keeps f (throw e : EStateM ε σ α) := fun _ => rfl

theorem keeps_get : Keeps f (get : EStateM ε σ σ) := fun _ => rfl

theorem keeps_require {b : Prop} [Decidable b] (e : ε) :
    Keeps f (require b e : EStateM ε σ PUnit) := by
  intro s
  unfold require
  split <;> rfl

theorem keeps_orRaise {o : Option α} (e : ε) : Keeps f (orRaise o e : EStateM ε σ α) := by
  intro s
  cases o <;> rfl

theorem Keeps.bind (hp : Keeps f p) (hq : ∀ a, Keeps f (q a)) : Keeps f (p >>= q) := by
  intro s
  have hs := hp s
  unfold finalState at hs ⊢
  rw [estate_bind]
  cases h : p s with
  | ok a s' =>
      rw [h] at hs
      exact (hq a s').trans hs
  | error e s' =>
      rw [h] at hs
      exact hs

theorem Keeps.grows [Preorder γ] (h : Keeps f p) : Grows f p := fun s => (h s).ge

theorem Grows.bind [Preorder γ] (hp : Grows f p) (hq : ∀ a, Grows f (q a)) : Grows f (p >>= q) := by
  intro s
  have hs := hp s
  unfold finalState at hs ⊢
  rw [estate_bind]
  cases h : p s with
  | ok a s' =>
      rw [h] at hs
      exact hs.trans (hq a s')
  | error e s' =>
      rw [h] at hs
      exact hs

theorem finalState_discard (p : EStateM ε σ α) (s : σ) : finalState (discard p) s = finalState p s := by
  have hdiscard : (discard p) s = match p s with
      | .ok _ s' => .ok ⟨⟩ s'
      | .error e s' => .error e s' := rfl
  unfold finalState
  rw [hdiscard]
  cases p s <;> rfl

theorem neverRaises_pure (a : α) : NeverRaises (pure a : EStateM ε σ α) := by
  intro s e s' h
  cases h

theorem neverRaises_modify (g : σ → σ) : NeverRaises (modify g : EStateM ε σ PUnit) := by
  intro s e s' h
  cases h

theorem NeverRaises.bind (hp : NeverRaises p) (hq : ∀ a, NeverRaises (q a)) :
    NeverRaises (p >>= q) := by
  intro s e s' h
  rcases estate_bind_error.mp h with h | ⟨a, s₁, _, h⟩
  · exact hp s e s' h
  · exact hq a s₁ e s' h

/-- First a part that keeps `f`, then one that leaves `f` as it was if it raises. -/
theorem RaisesClean.bind (hp : Keeps f p) (hq : ∀ a, RaisesClean f (q a)) :
    RaisesClean f (p >>= q) := by
  intro s e s' h
  rcases estate_bind_error.mp h with h | ⟨a, s₁, hok, h⟩
  · exact hp.raisesClean s e s' h
  · exact (hq a s₁ e s' h).trans (hp.of_ok hok)

end Lib
