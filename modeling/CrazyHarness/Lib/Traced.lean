import CrazyHarness.Lib.Program

/-! # Traced runs

A run of a program among others, with what it saw: its requests, each with the state in which it was
answered.  Between two requests others may do what `rely` allows.

* `Meets`: from a state of `pre`, whatever the program saw, returned and left meets `post`.
* `meets_bind`, `meets_request`: the rules for sequences and for one request.
* `Stays`: a program that runs alone keeps to the states of `J`; `stays_bind`, `stays_request`,
  `stays_of_asks` and, for programs that raise, `stays_andThen` are its rules.
* `Strategy.trace_traced`: a run that can be computed is such a run. -/

namespace Lib.Program

variable {I : Interface} {σ α β : Type}

section

variable (rely : σ → σ → Prop) (step : σ → (op : I.Op) → I.Reply op → σ → Prop)

/-- The program runs to its end among others. -/
inductive Traced : Program I α → σ → List (σ × I.Op) → α → σ → Prop
  | done (a : α) (s : σ) : Traced (done a) s [] a s
  | request {op : I.Op} {next : I.Reply op → Program I α} {r : I.Reply op} {s s₁ s₂ s' : σ}
      {l : List (σ × I.Op)} {a : α} (hrely : rely s s₁) (h : step s₁ op r s₂)
      (rest : Traced (next r) s₂ l a s') : Traced (request op next) s ((s₁, op) :: l) a s'

/-- What the program saw, returned and left meets `post`. -/
def Meets (pre : σ → Prop) (p : Program I α) (post : List (σ × I.Op) → α → σ → Prop) : Prop :=
  ∀ s l a s', pre s → Traced rely step p s l a s' → post l a s'

end

variable {rely : σ → σ → Prop} {step : σ → (op : I.Op) → I.Reply op → σ → Prop} {pre : σ → Prop}
  {p : Program I α} {post mid : List (σ × I.Op) → α → σ → Prop}

theorem traced_bind {f : α → Program I β} {s s' : σ} {l : List (σ × I.Op)} {b : β}
    (h : Traced rely step (p.bind f) s l b s') :
    ∃ l₁ a s₁ l₂, l = l₁ ++ l₂ ∧ Traced rely step p s l₁ a s₁ ∧ Traced rely step (f a) s₁ l₂ b s' := by
  induction p generalizing s l with
  | done a => exact ⟨[], a, s, l, rfl, .done a s, h⟩
  | request op next ih =>
      cases h with
      | request hrely hstep hrest =>
          obtain ⟨l₁, a, s₁, l₂, rfl, hp, hf⟩ := ih _ hrest
          exact ⟨_ :: l₁, a, s₁, l₂, rfl, .request hrely hstep hp, hf⟩

theorem meets_done {a : α} (h : ∀ s, pre s → post [] a s) : Meets rely step pre (done a) post := by
  intro s l b s' hs hrun
  cases hrun
  exact h s hs

theorem meets_request {op : I.Op} {next : I.Reply op → Program I α}
    (hrely : ∀ s s₁, pre s → rely s s₁ → pre s₁)
    (h : ∀ s₁ r, Meets rely step (fun s₂ => pre s₁ ∧ step s₁ op r s₂) (next r)
      (fun l a s' => post ((s₁, op) :: l) a s')) :
    Meets rely step pre (request op next) post := by
  intro s l a s' hs hrun
  cases hrun with
  | request hr hstep hrest => exact h _ _ _ _ _ _ ⟨hrely _ _ hs hr, hstep⟩ hrest

theorem meets_bind {f : α → Program I β} {goal : List (σ × I.Op) → β → σ → Prop}
    (h : Meets rely step pre p mid)
    (hf : ∀ l₁ a, Meets rely step (mid l₁ a) (f a) (fun l₂ b s' => goal (l₁ ++ l₂) b s')) :
    Meets rely step pre (p.bind f) goal := by
  intro s l b s' hs hrun
  obtain ⟨l₁, a, s₁, l₂, rfl, hp, hrest⟩ := traced_bind hrun
  exact hf l₁ a s₁ l₂ b s' (h s l₁ a s₁ hs hp) hrest

theorem Meets.weaken {pre' : σ → Prop} (h : Meets rely step pre p mid) (hpre : ∀ s, pre' s → pre s)
    (hpost : ∀ l a s, mid l a s → post l a s) : Meets rely step pre' p post := by
  intro s l a s' hs hrun
  exact hpost l a s' (h s l a s' (hpre s hs) hrun)

/-! ### Programs that run alone -/

section alone

variable {ε : Type} {J : σ → Prop} {q : α → σ → Prop}

/-- Every request is made in a state of `J`, and the end meets `post`. -/
def Stays (step : σ → (op : I.Op) → I.Reply op → σ → Prop) (J pre : σ → Prop) (p : Program I α)
    (post : α → σ → Prop) : Prop :=
  Meets Eq step pre p (fun l a s => (∀ m ∈ l, J m.1) ∧ post a s)

theorem stays_done {a : α} (h : ∀ s, pre s → q a s) : Stays step J pre (done a) q :=
  meets_done (fun s hs => ⟨fun _ hm => absurd hm List.not_mem_nil, h s hs⟩)

theorem stays_request {op : I.Op} {next : I.Reply op → Program I α} (hJ : ∀ s, pre s → J s)
    (h : ∀ r, Stays step J (fun s₂ => ∃ s₁, pre s₁ ∧ step s₁ op r s₂) (next r) q) :
    Stays step J pre (request op next) q := by
  refine meets_request (fun s s₁ hs heq => heq ▸ hs) ?_
  rintro s₁ r s₂ l a s' ⟨hs₁, hstep⟩ hrun
  obtain ⟨hmoments, hend⟩ := h r s₂ l a s' ⟨s₁, hs₁, hstep⟩ hrun
  refine ⟨?_, hend⟩
  intro m hm
  rcases List.mem_cons.mp hm with rfl | hm
  · exact hJ s₁ hs₁
  · exact hmoments m hm

theorem stays_bind {f : α → Program I β} {goal : β → σ → Prop} (h : Stays step J pre p q)
    (hf : ∀ a, Stays step J (q a) (f a) goal) : Stays step J pre (p.bind f) goal := by
  refine meets_bind h ?_
  rintro l₁ a s₁ l₂ b s' ⟨hfirst, hmid⟩ hrun
  obtain ⟨hsecond, hend⟩ := hf a s₁ l₂ b s' hmid hrun
  refine ⟨?_, hend⟩
  intro m hm
  exact (List.mem_append.mp hm).elim (hfirst m) (hsecond m)

theorem Stays.weaken {pre' : σ → Prop} {goal : α → σ → Prop} (h : Stays step J pre p q)
    (hpre : ∀ s, pre' s → pre s) (hpost : ∀ a s, q a s → goal a s) : Stays step J pre' p goal :=
  Meets.weaken h hpre (fun _ a s hend => ⟨hend.1, hpost a s hend.2⟩)

/-- What every request keeps, the program keeps. -/
theorem stays_of_asks {A : (op : I.Op) → I.Reply op → Prop} {Q : I.Op → Prop} {goal : α → Prop}
    (h : p.Asks A Q goal) (hJ : ∀ s, pre s → J s)
    (hstep : ∀ s op r s', pre s → Q op → step s op r s' → A op r ∧ pre s') :
    Stays step J pre p (fun a s => goal a ∧ pre s) := by
  induction p with
  | done a => exact stays_done (fun s hs => ⟨h, hs⟩)
  | request op next ih =>
      refine stays_request hJ fun r => ?_
      rintro s₂ l a s' ⟨s₁, hs₁, hs⟩ hrun
      obtain ⟨hreply, hs₂⟩ := hstep s₁ op r s₂ hs₁ h.1 hs
      exact ih r (h.2 r hreply) s₂ l a s' hs₂ hrun

/-- A raise ends the whole. -/
theorem stays_andThen {p : ExceptT ε (Program I) α} {f : α → ExceptT ε (Program I) β}
    {q : Except ε α → σ → Prop} {goal : Except ε β → σ → Prop} (h : Stays step J pre p q)
    (hok : ∀ a, Stays step J (q (.ok a)) (f a) goal)
    (herror : ∀ e s, q (.error e) s → goal (.error e) s) :
    Stays step J pre (p >>= f : ExceptT ε (Program I) β) goal := by
  refine stays_bind h ?_
  rintro (e | a)
  · exact stays_done (herror e)
  · exact hok a

end alone

/-- What a run under a strategy has seen after `n` requests. -/
def Strategy.trace (S : Strategy step) : ℕ → Program I α → σ → List (σ × I.Op)
  | 0, _, _ => []
  | _ + 1, done _, _ => []
  | n + 1, request op next, s =>
      match S.act op s with
      | some (r, s') => (s, op) :: S.trace n (next r) s'
      | none => []

theorem Strategy.trace_traced (S : Strategy step) (hrely : ∀ s, rely s s) {n : ℕ} {p : Program I α}
    {s : σ} {a : α} (h : (S.after n p s).1.result = some a) :
    Traced rely step p s (S.trace n p s) a (S.after n p s).2 := by
  induction n generalizing p s with
  | zero =>
      cases p with
      | done b =>
          obtain rfl := Option.some.inj h
          exact .done b s
      | request op next => cases h
  | succ n ih =>
      cases p with
      | done b =>
          obtain rfl := Option.some.inj h
          exact .done b s
      | request op next =>
          unfold Strategy.after at h ⊢
          unfold Strategy.trace
          cases hact : S.act op s with
          | none =>
              simp only [hact] at h
              cases h
          | some reply =>
              simp only [hact] at h ⊢
              exact .request (hrely s) (S.sound hact) (ih h)

end Lib.Program
