import CrazyHarness.Runtime.Store

/-! # What runtime code ensures

`Ensures step inv rely guar post p s`: started in `s`, among others that keep `inv` and change the
state within `rely`, the code `p` keeps `inv` and changes the state within `guar`, and what it
returns meets `post`, which may speak of the state.  An exception is no result. -/

namespace CrazyHarness

open Lib

namespace RuntimeM

variable {X : Interface} {α β σ : Type}

/-- The code keeps `inv`, changes the state within `guar`, and returns what meets `post`. -/
def Ensures (step : σ → (op : (withStore X).Op) → (withStore X).Reply op → σ → Prop)
    (inv : σ → Prop) (rely guar : σ → σ → Prop) (post : α → σ → Prop) (p : RuntimeM X α) (s : σ) :
    Prop :=
  Program.Safe step (fun s (_ : Unit) => inv s) rely guar
    (fun r s _ => ∀ a, r = .ok a → post a s) p s ()

variable {step : σ → (op : (withStore X).Op) → (withStore X).Reply op → σ → Prop} {inv : σ → Prop}
  {rely guar : σ → σ → Prop} {s : σ}

theorem ensures_pure {post : α → σ → Prop} {a : α} (h : post a s) :
    Ensures step inv rely guar post (pure a : RuntimeM X α) s := by
  intro b hb
  obtain rfl := Except.ok.inj hb
  exact h

theorem ensures_throw {post : α → σ → Prop} (e : RuntimeError) :
    Ensures step inv rely guar post (throw e : RuntimeM X α) s := by
  intro a ha
  cases ha

theorem ensures_bind {mid : α → σ → Prop} {post : β → σ → Prop} {p : RuntimeM X α}
    {f : α → RuntimeM X β} (h : Ensures step inv rely guar mid p s)
    (hf : ∀ a s, mid a s → Ensures step inv rely guar post (f a) s) :
    Ensures step inv rely guar post (p >>= f) s := by
  refine Program.safe_bind h ?_
  intro r s m hr
  cases r with
  | ok a => exact hf a s (hr a rfl)
  | error e =>
      intro b hb
      cases hb

theorem ensures_handle {post : α → σ → Prop} {p : RuntimeM X α} {handler : RuntimeError → RuntimeM X α}
    (h : Ensures step inv rely guar post p s)
    (hhandler : ∀ e s, Ensures step inv rely guar post (handler e) s) :
    Ensures step inv rely guar post (handle p handler) s := by
  refine Program.safe_bind h ?_
  intro r s m hr
  cases r with
  | ok a => exact ensures_pure (hr a rfl)
  | error e => exact hhandler e s

theorem Ensures.weaken {mid post : α → σ → Prop} {p : RuntimeM X α}
    (h : Ensures step inv rely guar mid p s) (hpost : ∀ a s, mid a s → post a s) :
    Ensures step inv rely guar post p s :=
  Program.Safe.weaken h (fun _ s _ hr a ha => hpost a s (hr a ha))

/-- What was the case and stays so as the state grows is the case in the end. -/
theorem Ensures.keep {grows : σ → σ → Prop} {post : α → σ → Prop} {p : RuntimeM X α} {φ : σ → Prop}
    (h : Ensures step inv grows grows post p s) (hrefl : ∀ s, grows s s)
    (htrans : ∀ {a b c}, grows a b → grows b c → grows a c) (hφ : φ s)
    (hstable : ∀ s s', grows s s' → φ s → φ s') :
    Ensures step inv grows grows (fun a s => φ s ∧ post a s) p s :=
  (Program.Safe.grown h hrefl htrans).weaken (fun _ s' _ hr a ha => ⟨hstable s s' hr.1 hφ, hr.2 a ha⟩)

/-- One step. -/
theorem ensures_lift {op : (withStore X).Op} {post : (withStore X).Reply op → σ → Prop}
    (h : ∀ s₁ r s₂, rely s s₁ → inv s₁ → step s₁ op r s₂ → inv s₂ ∧ guar s₁ s₂ ∧ post r s₂) :
    Ensures step inv rely guar post (lift (@Program.perform (withStore X) op)) s := by
  intro s₁ _ r s₂ hrely hinv hs
  obtain ⟨hinv', hguar, hpost⟩ := h s₁ r s₂ hrely hinv hs
  refine ⟨(), hinv', hguar, ?_⟩
  intro a ha
  obtain rfl := Except.ok.inj ha
  exact hpost

/-- One step that may raise. -/
theorem ensures_raising {post : α → σ → Prop}
    {p : Program (withStore X) (Except StoreError α)}
    (h : Program.Safe step (fun s (_ : Unit) => inv s) rely guar
      (fun r s _ => ∀ a, r = .ok a → post a s) p s ()) :
    Ensures step inv rely guar post (raising p) s := by
  refine Program.safe_bind h ?_
  intro r s m hr
  cases r with
  | ok a => exact ensures_pure (hr a rfl)
  | error e => exact ensures_throw _

/-- Code that runs alone and makes only requests that keep `φ`. -/
theorem ensures_alone {A : (op : (withStore X).Op) → (withStore X).Reply op → Prop}
    {Q : (withStore X).Op → Prop} {post : α → Prop} {p : RuntimeM X α} {φ : σ → Prop}
    (h : Asks A Q post p) (hφ : φ s) (hreply : ∀ s op r s', step s op r s' → A op r)
    (hstep : ∀ s op r s', φ s → Q op → step s op r s' → inv s' ∧ φ s') :
    Ensures step inv Eq (fun _ _ => True) (fun a s => φ s ∧ post a) p s := by
  induction p generalizing s with
  | done r =>
      intro a ha
      exact ⟨hφ, h a ha⟩
  | request op next ih =>
      rintro s₁ _ r s₂ rfl - hs
      obtain ⟨hinv', hφ'⟩ := hstep s op r s₂ hφ h.1 hs
      exact ⟨(), hinv', trivial, ih r (h.2 r (hreply _ _ _ _ hs)) hφ'⟩

/-- Code that makes only such requests. -/
theorem ensures_of_asks {A : (op : (withStore X).Op) → (withStore X).Reply op → Prop}
    {Q : (withStore X).Op → Prop} {post : α → Prop} {p : RuntimeM X α} (h : Asks A Q post p)
    (hreply : ∀ s op r s', step s op r s' → A op r)
    (hstep : ∀ s op r s', inv s → Q op → step s op r s' → inv s' ∧ guar s s') :
    Ensures step inv rely guar (fun a _ => post a) p s :=
  Program.Asks.safe h hreply (fun s _ op r s' hinv hQ hs => hstep s op r s' hinv hQ hs)

end RuntimeM

end CrazyHarness
