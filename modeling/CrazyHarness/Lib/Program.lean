import Mathlib

/-! # Programs over atomic operations

A `Program I α` is sequential code that touches shared state only through the operations of
an interface `I`: it is done with a value, or it requests one operation and goes on from the
reply.  Each operation is atomic; what it may reply and do is a relation `step`, so an
operation of which nothing is known (a remote call, a clock) is one that relates to every
reply.

* `Reaches step p s p' s'`: the program has made some of its requests, from `(p, s)` to
  `(p', s')`.  A process that dies between two operations leaves the state of such a point.
* `Runs step p s a s'`: the program has come to its end with the value `a`.
* `Asks A Q post p`: what the program asks for meets `Q` and its value meets `post`, as long as
  the replies are among those that `A` allows.
* `Spends X last n p`: the program makes at most `n` requests of the kind `X`, and none after one
  that was the last; `Path` is a list of requests and replies.
* `Strategy.after` computes a run, for a fixed way of answering the requests.
* `Safe`: a program keeps an invariant at every one of its steps, whatever others do in
  between within `rely`, does itself only what `guar` allows, and ends with `post`.  The
  invariant may count what programs own: each program owns an element of a commutative
  monoid, and the invariant speaks of the state and the sum of what all of them own.  The
  rules `safe_bind`, `Safe.weaken`, `Safe.frame`, `Safe.stable`, `Safe.grown` build such facts
  along the program. -/

namespace Lib

/-- What a program can ask for, and the type of each answer. -/
structure Interface where
  Op : Type
  Reply : Op → Type

/-- Two interfaces side by side. -/
def Interface.beside (I J : Interface) : Interface where
  Op := I.Op ⊕ J.Op
  Reply
    | .inl op => I.Reply op
    | .inr op => J.Reply op

/-- Sequential code over the operations of an interface. -/
inductive Program (I : Interface) (α : Type) where
  | done (a : α)
  | request (op : I.Op) (next : I.Reply op → Program I α)

namespace Program

variable {I : Interface} {α β γ : Type}

/-- Run `p`, then `f` on its value. -/
def bind : Program I α → (α → Program I β) → Program I β
  | done a, f => f a
  | request op next, f => request op (fun r => (next r).bind f)

instance : Monad (Program I) where
  pure := done
  bind := bind

/-- One operation. -/
def perform (op : I.Op) : Program I (I.Reply op) := request op done

@[simp] theorem pure_eq (a : α) : (pure a : Program I α) = done a := rfl

@[simp] theorem bind_eq (p : Program I α) (f : α → Program I β) : (p >>= f) = p.bind f := rfl

@[simp] theorem done_bind (a : α) (f : α → Program I β) : (done a).bind f = f a := rfl

@[simp] theorem request_bind (op : I.Op) (next : I.Reply op → Program I α) (f : α → Program I β) :
    (request op next).bind f = request op (fun r => (next r).bind f) := rfl

@[simp] theorem perform_bind (op : I.Op) (f : I.Reply op → Program I β) :
    (perform op).bind f = request op f := rfl

@[simp] theorem bind_done (p : Program I α) : p.bind done = p := by
  induction p with
  | done a => rfl
  | request op next ih => simp only [request_bind, ih]

theorem bind_assoc (p : Program I α) (f : α → Program I β) (g : β → Program I γ) :
    (p.bind f).bind g = p.bind (fun a => (f a).bind g) := by
  induction p with
  | done a => rfl
  | request op next ih => simp only [request_bind, ih]

/-- Run `p` with every request answered by a program of another interface, which may keep a
value of its own. -/
def interpret {J : Interface} {τ : Type} (h : (op : I.Op) → τ → Program J (I.Reply op × τ)) :
    Program I α → τ → Program J (α × τ)
  | done a, t => done (a, t)
  | request op next, t => (h op t).bind (fun rt => (next rt.1).interpret h rt.2)

theorem interpret_bind {J : Interface} {τ : Type}
    (h : (op : I.Op) → τ → Program J (I.Reply op × τ)) (p : Program I α) (f : α → Program I β)
    (t : τ) :
    (p.bind f).interpret h t = (p.interpret h t).bind (fun at' => (f at'.1).interpret h at'.2) := by
  induction p generalizing t with
  | done a => rfl
  | request op next ih =>
      simp only [request_bind, interpret, bind_assoc]
      congr 1
      funext rt
      exact ih rt.1 rt.2

/-- The value, with every request answered by `f`. -/
def eval (f : (op : I.Op) → I.Reply op) : Program I α → α
  | done a => a
  | request op next => (next (f op)).eval f

@[simp] theorem eval_bind (f : (op : I.Op) → I.Reply op) (p : Program I α) (g : α → Program I β) :
    (p.bind g).eval f = (g (p.eval f)).eval f := by
  induction p with
  | done a => rfl
  | request op next ih => exact ih (f op)

/-- A program of the first of two interfaces. -/
def left {J : Interface} : Program I α → Program (I.beside J) α
  | done a => done a
  | request op next => @request (I.beside J) α (.inl op) (fun r => (next r).left)

/-- A program of the second of two interfaces. -/
def right {J : Interface} : Program J α → Program (I.beside J) α
  | done a => done a
  | request op next => @request (I.beside J) α (.inr op) (fun r => (next r).right)

/-- When the replies are among `A`, every request that the program makes meets `Q`, and its value
meets `post`. -/
def Asks (A : (op : I.Op) → I.Reply op → Prop) (Q : I.Op → Prop) (post : α → Prop) :
    Program I α → Prop
  | done a => post a
  | request op next => Q op ∧ ∀ r, A op r → Asks A Q post (next r)

section asks

variable {A : (op : I.Op) → I.Reply op → Prop} {Q : I.Op → Prop} {p : Program I α}

theorem asks_bind {mid : α → Prop} {post : β → Prop} {f : α → Program I β} (h : p.Asks A Q mid)
    (hf : ∀ a, mid a → (f a).Asks A Q post) : (p.bind f).Asks A Q post := by
  induction p with
  | done a => exact hf a h
  | request op next ih => exact ⟨h.1, fun r hr => ih r (h.2 r hr)⟩

theorem Asks.weaken {mid post : α → Prop} (h : p.Asks A Q mid) (hpost : ∀ a, mid a → post a) :
    p.Asks A Q post := by
  induction p with
  | done a => exact hpost a h
  | request op next ih => exact ⟨h.1, fun r hr => ih r (h.2 r hr)⟩

theorem Asks.fewer {A' : (op : I.Op) → I.Reply op → Prop} {post : α → Prop} (h : p.Asks A Q post)
    (hA : ∀ op r, A' op r → A op r) : p.Asks A' Q post := by
  induction p with
  | done a => exact h
  | request op next ih => exact ⟨h.1, fun r hr => ih r (h.2 r (hA op r hr))⟩

theorem Asks.mono {Q' : I.Op → Prop} {post : α → Prop} (h : p.Asks A Q post)
    (hQ : ∀ op, Q op → Q' op) : p.Asks A Q' post := by
  induction p with
  | done a => exact h
  | request op next ih => exact ⟨hQ op h.1, fun r hr => ih r (h.2 r hr)⟩

theorem Asks.eval {post : α → Prop} (h : p.Asks A Q post) {f : (op : I.Op) → I.Reply op}
    (hf : ∀ op, A op (f op)) : post (p.eval f) := by
  induction p with
  | done a => exact h
  | request op next ih => exact ih _ (h.2 _ (hf op))

/-- Some replies, all among `A`, lead the program to the value. -/
def CanReturn (A : (op : I.Op) → I.Reply op → Prop) : Program I α → α → Prop
  | done b, a => b = a
  | request op next, a => ∃ r, A op r ∧ (next r).CanReturn A a

theorem canReturn_bind {f : α → Program I β} {b : β} :
    (p.bind f).CanReturn A b ↔ ∃ a, p.CanReturn A a ∧ (f a).CanReturn A b := by
  induction p with
  | done a =>
      constructor
      · intro h
        exact ⟨a, rfl, h⟩
      · rintro ⟨a', rfl, h⟩
        exact h
  | request op next ih =>
      constructor
      · rintro ⟨r, hr, h⟩
        obtain ⟨a, ha, hb⟩ := (ih r).mp h
        exact ⟨a, ⟨r, hr, ha⟩, hb⟩
      · rintro ⟨a, ⟨r, hr, ha⟩, hb⟩
        exact ⟨r, hr, (ih r).mpr ⟨a, ha, hb⟩⟩

theorem CanReturn.mono {A' : (op : I.Op) → I.Reply op → Prop} {a : α} (h : p.CanReturn A a)
    (hA : ∀ op r, A op r → A' op r) : p.CanReturn A' a := by
  induction p with
  | done b => exact h
  | request op next ih =>
      obtain ⟨r, hr, h⟩ := h
      exact ⟨r, hA op r hr, ih r h⟩

/-- A program asks for what it asks for, and returns what it can return. -/
theorem asks_canReturn {p : Program I α} : p.Asks A (fun _ => True) (p.CanReturn A) := by
  induction p with
  | done a => rfl
  | request _ _ ih => exact ⟨trivial, fun r hr => (ih r).weaken (fun _ ha => ⟨r, hr, ha⟩)⟩

/-- Some replies, all among `A`, lead the program to the request. -/
def CanRequest (A : (op : I.Op) → I.Reply op → Prop) : Program I α → I.Op → Prop
  | done _, _ => False
  | request op next, op' => op = op' ∨ ∃ r, A op r ∧ (next r).CanRequest A op'

/-- What a program asks for under such replies, its requests meet. -/
theorem Asks.canRequest {post : α → Prop} (h : p.Asks A Q post) {op : I.Op}
    (hop : p.CanRequest A op) : Q op := by
  induction p with
  | done a => exact hop.elim
  | request op' next ih =>
      rcases hop with rfl | ⟨r, hr, hop⟩
      · exact h.1
      · exact ih r (h.2 r hr) hop

theorem asks_true (p : Program I α) : p.Asks A (fun _ => True) (fun _ => True) := by
  induction p with
  | done a => trivial
  | request op next ih => exact ⟨trivial, fun r _ => ih r⟩

theorem asks_left {J : Interface} {A : (op : (I.beside J).Op) → (I.beside J).Reply op → Prop}
    {Q : (I.beside J).Op → Prop} {post : α → Prop} {p : Program I α}
    (h : p.Asks (fun op r => A (.inl op) r) (fun op => Q (.inl op)) post) :
    p.left.Asks A Q post := by
  induction p with
  | done a => exact h
  | request op next ih => exact ⟨h.1, fun r hr => ih r (h.2 r hr)⟩

theorem asks_right {J : Interface} {A : (op : (I.beside J).Op) → (I.beside J).Reply op → Prop}
    {Q : (I.beside J).Op → Prop} {post : α → Prop} {p : Program J α}
    (h : p.Asks (fun op r => A (.inr op) r) (fun op => Q (.inr op)) post) :
    p.right.Asks A Q post := by
  induction p with
  | done a => exact h
  | request op next ih => exact ⟨h.1, fun r hr => ih r (h.2 r hr)⟩

/-- An interpreted program asks for what its handler asks for. -/
theorem asks_interpret {J : Interface} {τ : Type} {h : (op : J.Op) → τ → Program I (J.Reply op × τ)}
    (hop : ∀ op t, (h op t).Asks A Q (fun _ => True)) (p : Program J α) (t : τ) :
    (p.interpret h t).Asks A Q (fun _ => True) := by
  induction p generalizing t with
  | done a => trivial
  | request op next ih => exact asks_bind (hop op t) (fun rt _ => ih rt.1 rt.2)

end asks

/-! ### Paths -/

/-- The requests that lead from one point of a program to another, with their replies. -/
inductive Path : Program I α → List ((op : I.Op) × I.Reply op) → Program I α → Prop
  | nil (p : Program I α) : Path p [] p
  | cons {op : I.Op} {next : I.Reply op → Program I α} {r : I.Reply op} {p : Program I α}
      {l : List ((op : I.Op) × I.Reply op)} (h : Path (next r) l p) :
      Path (request op next) (⟨op, r⟩ :: l) p

/-- The program makes at most so many requests of the kind `X`, and none after one whose reply is
`last`. -/
def Spends (X : I.Op → Prop) (last : (op : I.Op) → I.Reply op → Prop) : ℕ → Program I α → Prop
  | _, done _ => True
  | n, request op next =>
      (¬ X op ∧ ∀ r, (next r).Spends X last n) ∨
        (X op ∧ 0 < n ∧ ∀ r, (last op r → (next r).Spends X last 0) ∧
          (¬ last op r → (next r).Spends X last (n - 1)))

section paths

variable {X : I.Op → Prop} {last : (op : I.Op) → I.Reply op → Prop} {p p' : Program I α} {n m : ℕ}
  {l : List ((op : I.Op) × I.Reply op)}

theorem Spends.mono (h : p.Spends X last n) (hle : n ≤ m) : p.Spends X last m := by
  induction p generalizing n m with
  | done a => trivial
  | request op next ih =>
      rcases h with ⟨hop, h⟩ | ⟨hop, hpos, h⟩
      · exact .inl ⟨hop, fun r => ih r (h r) hle⟩
      · refine .inr ⟨hop, by omega, fun r => ⟨(h r).1, fun hr => ih r ((h r).2 hr) (by omega)⟩⟩

/-- A first part without requests of the kind costs nothing. -/
theorem spends_bind {f : α → Program I β} {mid : α → Prop}
    (h : p.Asks (fun _ _ => True) (fun op => ¬ X op) mid)
    (hf : ∀ a, mid a → (f a).Spends X last n) : (p.bind f).Spends X last n := by
  induction p with
  | done a => exact hf a h
  | request op next ih => exact .inl ⟨h.1, fun r => ih r (h.2 r trivial)⟩

theorem Asks.spends {post : α → Prop} (h : p.Asks (fun _ _ => True) (fun op => ¬ X op) post) :
    p.Spends X last n := by
  induction p with
  | done a => trivial
  | request op next ih => exact .inl ⟨h.1, fun r => ih r (h.2 r trivial)⟩

theorem Path.count_le [DecidablePred X] (hpath : Path p l p') (h : p.Spends X last n) :
    l.countP (fun x => X x.1) ≤ n := by
  induction hpath generalizing n with
  | nil => exact Nat.zero_le n
  | @cons op next r p l _ ih =>
      rw [List.countP_cons]
      rcases h with ⟨hop, h⟩ | ⟨hop, hpos, h⟩
      · rw [if_neg (by simpa using hop)]
        exact ih (h r)
      · rw [if_pos (by simpa using hop)]
        by_cases hlast : last op r
        · have hrest := ih ((h r).1 hlast)
          omega
        · have hrest := ih ((h r).2 hlast)
          omega

/-- After a last request of the kind no other comes. -/
theorem Path.none_after {before after : List ((op : I.Op) × I.Reply op)} {op : I.Op} {r : I.Reply op}
    (hpath : Path p (before ++ ⟨op, r⟩ :: after) p') (h : p.Spends X last n) (hop : X op)
    (hlast : last op r) : ∀ x ∈ after, ¬ X x.1 := by
  induction before generalizing p n with
  | nil =>
      cases hpath with
      | cons hpath =>
          rcases h with ⟨hop', -⟩ | ⟨-, -, h⟩
          · exact absurd hop hop'
          · classical
            have hcount := hpath.count_le ((h r).1 hlast)
            rw [Nat.le_zero, List.countP_eq_zero] at hcount
            intro x hx
            simpa using hcount x hx
  | cons b before ih =>
      cases hpath with
      | @cons _ _ r' _ _ hpath =>
          rcases h with ⟨-, h⟩ | ⟨-, -, h⟩
          · exact ih hpath (h r')
          · by_cases hlast' : last _ r'
            · exact ih hpath ((h r').1 hlast')
            · exact ih hpath ((h r').2 hlast')

end paths

/-! ### Execution -/

section execution

variable {σ : Type} (step : σ → (op : I.Op) → I.Reply op → σ → Prop)

/-- Some of the requests have been made. -/
inductive Reaches : Program I α → σ → Program I α → σ → Prop
  | refl (p : Program I α) (s : σ) : Reaches p s p s
  | step {op : I.Op} {next : I.Reply op → Program I α} {r : I.Reply op} {s s₁ s' : σ}
      {p' : Program I α} (h : step s op r s₁) (rest : Reaches (next r) s₁ p' s') :
      Reaches (request op next) s p' s'

/-- The program has come to its end. -/
def Runs (p : Program I α) (s : σ) (a : α) (s' : σ) : Prop := Reaches step p s (done a) s'

/-- One way of answering requests, within what `step` allows; a request without an answer
waits. -/
structure Strategy where
  act : (op : I.Op) → σ → Option (I.Reply op × σ)
  sound : ∀ {op s r}, act op s = some r → step s op r.1 r.2

variable {step}

/-- Requests outside `allowed` get no answer. -/
def Strategy.restrict (S : Strategy step) (allowed : σ → I.Op → Prop)
    [∀ s op, Decidable (allowed s op)] :
    Strategy (fun s op r s' => step s op r s' ∧ allowed s op) where
  act op s := if allowed s op then S.act op s else none
  sound := by
    intro op s r h
    split at h
    next hallowed => exact ⟨S.sound h, hallowed⟩
    next => cases h

/-- The point a run under a strategy has come to after `n` requests. -/
def Strategy.after (S : Strategy step) : ℕ → Program I α → σ → Program I α × σ
  | 0, p, s => (p, s)
  | _ + 1, done a, s => (done a, s)
  | n + 1, request op next, s =>
      match S.act op s with
      | some (r, s') => S.after n (next r) s'
      | none => (request op next, s)

theorem Strategy.after_reaches (S : Strategy step) (n : ℕ) (p : Program I α) (s : σ) :
    Reaches step p s (S.after n p s).1 (S.after n p s).2 := by
  induction n generalizing p s with
  | zero => exact .refl _ _
  | succ n ih =>
      cases p with
      | done a => exact .refl _ _
      | request op next =>
          unfold Strategy.after
          split
          next r s' hact => exact .step (S.sound hact) (ih _ _)
          next => exact .refl _ _

/-- The value of a program that has come to its end. -/
def result : Program I α → Option α
  | done a => some a
  | request _ _ => none

theorem Strategy.runs_of_result (S : Strategy step) {n : ℕ} {p : Program I α} {s : σ} {a : α}
    (h : (S.after n p s).1.result = some a) : Runs step p s a (S.after n p s).2 := by
  have hreaches := S.after_reaches n p s
  cases hend : (S.after n p s).1 with
  | done b =>
      rw [hend] at h hreaches
      obtain rfl := Option.some.inj h
      exact hreaches
  | request op next =>
      rw [hend] at h
      cases h

theorem Reaches.canRequest {p : Program I α} {op : I.Op} {next : I.Reply op → Program I α} {s s' : σ}
    (h : Reaches step p s (request op next) s') : p.CanRequest (fun _ _ => True) op := by
  generalize hp : request op next = p' at h
  induction h with
  | refl p s =>
      subst hp
      exact .inl rfl
  | @step _ _ r _ _ _ _ hs _ ih => exact .inr ⟨r, trivial, ih hp⟩

/-- A run that changes the state at its next step makes a request there. -/
theorem Strategy.next_step (S : Strategy step) {n : ℕ} {p : Program I α} {s : σ}
    (h : (S.after (n + 1) p s).2 ≠ (S.after n p s).2) :
    ∃ op r, p.CanRequest (fun _ _ => True) op ∧ step (S.after n p s).2 op r (S.after (n + 1) p s).2 := by
  induction n generalizing p s with
  | zero =>
      cases p with
      | done a => exact absurd rfl h
      | request op next =>
          cases hact : S.act op s with
          | none =>
              simp only [Strategy.after, hact] at h
              exact absurd rfl h
          | some reply =>
              simp only [Strategy.after, hact]
              exact ⟨op, reply.1, .inl rfl, S.sound hact⟩
  | succ n ih =>
      cases p with
      | done a => exact absurd rfl h
      | request op next =>
          rw [Strategy.after, Strategy.after] at h ⊢
          cases hact : S.act op s with
          | none =>
              simp only [hact] at h
              exact absurd rfl h
          | some reply =>
              simp only [hact] at h ⊢
              obtain ⟨op', r, hop, hs⟩ := ih h
              exact ⟨op', r, .inr ⟨reply.1, trivial, hop⟩, hs⟩

theorem Reaches.trans {p p' p'' : Program I α} {s s' s'' : σ} (h : Reaches step p s p' s')
    (h' : Reaches step p' s' p'' s'') : Reaches step p s p'' s'' := by
  induction h with
  | refl => exact h'
  | step hs _ ih => exact .step hs (ih h')

theorem Reaches.bind {p p' : Program I α} {s s' : σ} (h : Reaches step p s p' s')
    (f : α → Program I β) : Reaches step (p.bind f) s (p'.bind f) s' := by
  induction h with
  | refl => exact .refl _ _
  | step hs _ ih => exact .step hs ih

end execution

/-! ### Safety -/

section safety

variable {σ M : Type} [AddCommMonoid M] (step : σ → (op : I.Op) → I.Reply op → σ → Prop)
  (inv : σ → M → Prop) (rely guar : σ → σ → Prop)

/-- From state `s` on and owning `m`, with others changing the state within `rely` before
each of its operations and owning the rest `R`, the program keeps `inv`, changes the state
within `guar`, and ends in `post`. -/
def Safe (post : α → σ → M → Prop) : Program I α → σ → M → Prop
  | done a, s, m => post a s m
  | request op next, s, m => ∀ s₁ R r s₂, rely s s₁ → inv s₁ (m + R) → step s₁ op r s₂ →
      ∃ m', inv s₂ (m' + R) ∧ guar s₁ s₂ ∧ Safe post (next r) s₂ m'

variable {step inv rely guar} {post post' : α → σ → M → Prop} {p : Program I α} {s s' : σ} {m : M}

theorem safe_done {a : α} (h : post a s m) : Safe step inv rely guar post (done a) s m := h

theorem Safe.weaken (h : Safe step inv rely guar post p s m)
    (hpost : ∀ a s m, post a s m → post' a s m) : Safe step inv rely guar post' p s m := by
  induction p generalizing s m with
  | done a => exact hpost a s m h
  | request op next ih =>
      intro s₁ R r s₂ hrely hinv hstep
      obtain ⟨m', hinv', hguar, hrest⟩ := h s₁ R r s₂ hrely hinv hstep
      exact ⟨m', hinv', hguar, ih r hrest⟩

/-- Operations that can do less do no more harm. -/
theorem Safe.restrict {step' : σ → (op : I.Op) → I.Reply op → σ → Prop}
    (h : Safe step inv rely guar post p s m) (hstep : ∀ s op r s', step' s op r s' → step s op r s') :
    Safe step' inv rely guar post p s m := by
  induction p generalizing s m with
  | done a => exact h
  | request op next ih =>
      intro s₁ R r s₂ hrely hinv hs
      obtain ⟨m', hinv', hguar, hrest⟩ := h s₁ R r s₂ hrely hinv (hstep _ _ _ _ hs)
      exact ⟨m', hinv', hguar, ih r hrest⟩

/-- A program is safe when every request it makes is. -/
theorem Asks.safe {A : (op : I.Op) → I.Reply op → Prop} {Q : I.Op → Prop} {goal : α → Prop}
    (h : p.Asks A Q goal) (hreply : ∀ s op r s', step s op r s' → A op r)
    (hstep : ∀ s m op r s', inv s m → Q op → step s op r s' → inv s' m ∧ guar s s') :
    Safe step inv rely guar (fun a _ _ => goal a) p s m := by
  induction p generalizing s m with
  | done a => exact h
  | request op next ih =>
      intro s₁ R r s₂ _ hinv hs
      obtain ⟨hinv', hguar⟩ := hstep s₁ (m + R) op r s₂ hinv h.1 hs
      exact ⟨m, hinv', hguar, ih r (h.2 r (hreply _ _ _ _ hs))⟩

/-- A program that runs alone keeps what every request it makes keeps. -/
theorem Asks.safe_along {A : (op : I.Op) → I.Reply op → Prop} {Q : I.Op → Prop} {goal : α → Prop}
    (h : p.Asks A Q goal) (hreply : ∀ s op r s', step s op r s' → A op r) {P : σ → Prop} (hP : P s)
    (hstep : ∀ s m op r s', P s → inv s m → Q op → step s op r s' → P s' ∧ inv s' m ∧ guar s s') :
    Safe step inv Eq guar (fun a s _ => goal a ∧ P s) p s m := by
  induction p generalizing s m with
  | done a => exact ⟨h, hP⟩
  | request op next ih =>
      rintro _ R r s₂ rfl hinv hs
      obtain ⟨hP', hinv', hguar⟩ := hstep s (m + R) op r s₂ hP hinv h.1 hs
      exact ⟨m, hinv', hguar, ih r (h.2 r (hreply _ _ _ _ hs)) hP'⟩

/-- What the program does not need it still owns in the end. -/
theorem Safe.frame (h : Safe step inv rely guar post p s m) (f : M) :
    Safe step inv rely guar (fun a s m => ∃ m', m = m' + f ∧ post a s m') p s (m + f) := by
  induction p generalizing s m with
  | done a => exact ⟨m, rfl, h⟩
  | request op next ih =>
      intro s₁ R r s₂ hrely hinv hs
      rw [add_assoc] at hinv
      obtain ⟨m', hinv', hguar, hrest⟩ := h s₁ (f + R) r s₂ hrely hinv hs
      rw [← add_assoc] at hinv'
      exact ⟨m' + f, hinv', hguar, ih r hrest⟩

/-- What others do before the program goes on does no harm. -/
theorem Safe.stable (h : Safe step inv rely guar post p s m) (hs : rely s s')
    (htrans : ∀ {a b c}, rely a b → rely b c → rely a c)
    (hpost : ∀ a s s' m, rely s s' → post a s m → post a s' m) :
    Safe step inv rely guar post p s' m := by
  cases p with
  | done a => exact hpost a s s' m hs h
  | request op next =>
      intro s₁ R r s₂ hrely hinv hstep
      exact h s₁ R r s₂ (htrans hs hrely) hinv hstep

/-- Where a program ends, the state has grown. -/
theorem Safe.grown {grows : σ → σ → Prop} (h : Safe step inv grows grows post p s m)
    (hrefl : ∀ s, grows s s) (htrans : ∀ {a b c}, grows a b → grows b c → grows a c) :
    Safe step inv grows grows (fun a s' m' => grows s s' ∧ post a s' m') p s m := by
  induction p generalizing s m with
  | done a => exact ⟨hrefl s, h⟩
  | request op next ih =>
      intro s₁ R r s₂ hrely hinv hstep
      obtain ⟨m', hinv', hguar, hrest⟩ := h s₁ R r s₂ hrely hinv hstep
      refine ⟨m', hinv', hguar, (ih r hrest).weaken ?_⟩
      intro a s' m'' ha
      exact ⟨htrans hrely (htrans hguar ha.1), ha.2⟩

/-- Sequencing: the second part is safe from wherever the first may end. -/
theorem safe_bind {f : α → Program I β} {goal : β → σ → M → Prop}
    (h : Safe step inv rely guar post p s m)
    (hf : ∀ a s' m', post a s' m' → Safe step inv rely guar goal (f a) s' m') :
    Safe step inv rely guar goal (p.bind f) s m := by
  induction p generalizing s m with
  | done a => exact hf a s m h
  | request op next ih =>
      intro s₁ R r s₂ hrely hinv hstep
      obtain ⟨m', hinv', hguar, hrest⟩ := h s₁ R r s₂ hrely hinv hstep
      exact ⟨m', hinv', hguar, ih r hrest⟩

/-- An interpreted program is safe when the handler is safe for the requests of the program. -/
theorem Asks.safe_interpret {J : Interface} {τ : Type}
    {h : (op : J.Op) → τ → Program I (J.Reply op × τ)} {Q : J.Op → Prop} {goal : α → Prop}
    {q : Program J α} {t : τ} (hasks : q.Asks (fun _ _ => True) Q goal) {P : σ → M → Prop}
    (hop : ∀ op t s m, Q op → P s m → Safe step inv rely guar (fun _ s m => P s m) (h op t) s m)
    (hP : P s m) : Safe step inv rely guar (fun at' s m => goal at'.1 ∧ P s m) (q.interpret h t) s m := by
  induction q generalizing t s m with
  | done a => exact ⟨hasks, hP⟩
  | request op next ih =>
      refine safe_bind (hop op t s m hasks.1 hP) ?_
      intro rt s' m' hP'
      exact ih rt.1 (hasks.2 rt.1 trivial) hP'

/-- A safe program that runs alone is safe at every point it reaches. -/
theorem Safe.reaches {p' : Program I α} (h : Safe step inv rely guar post p s m) (hinv : inv s m)
    (hrefl : ∀ s, rely s s) (hr : Reaches step p s p' s') :
    ∃ m', inv s' m' ∧ Safe step inv rely guar post p' s' m' := by
  induction hr generalizing m with
  | refl => exact ⟨m, hinv, h⟩
  | step hs _ ih =>
      obtain ⟨m', hinv', _, hrest⟩ := h _ 0 _ _ (hrefl _) (by rwa [add_zero]) hs
      exact ih hrest (by rwa [add_zero] at hinv')

/-- Every step of a safe program that runs alone is between states of the invariant. -/
theorem Safe.reaches_within {p' : Program I α} (h : Safe step inv rely guar post p s m) (hinv : inv s m)
    (hrefl : ∀ s, rely s s) (hr : Reaches step p s p' s') :
    Reaches (fun s op r s' => step s op r s' ∧ (∃ m, inv s m) ∧ ∃ m, inv s' m) p s p' s' := by
  induction hr generalizing m with
  | refl => exact .refl _ _
  | step hs _ ih =>
      obtain ⟨m', hinv', _, hrest⟩ := h _ 0 _ _ (hrefl _) (by rwa [add_zero]) hs
      rw [add_zero] at hinv'
      exact .step ⟨hs, ⟨m, hinv⟩, m', hinv'⟩ (ih hrest hinv')

end safety

end Program

end Lib
