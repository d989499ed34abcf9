import Mathlib

/-! # Depth-first search for cycles

`visit succ depth visiting visited a` visits `a` and everything that can be reached from it, and stops
when it meets an element that is being visited.  The depth is bounded, so that the search is defined for
every `succ`; where the elements in question are finitely many, a bound above their number is never
reached (`search_ne_depth`).

* `Topological succ xs`: no element of the list comes twice, and the successors of each come after it.
* `visit_settles`: a visit returns such a list with the element in it, or there is a cycle.
* `search_ok_iff`: the search from all elements returns exactly when there is no cycle. -/

namespace Lib

variable {α : Type*} [DecidableEq α]

/-- Why a search stops: it has met an element that is being visited, or its depth is used up. -/
inductive SearchStop where
  | cycle
  | depth
deriving DecidableEq

/-- Visit an element and its successors; the result lists what has been visited. -/
def visit (succ : α → List α) : ℕ → List α → List α → α → Except SearchStop (List α)
  | 0, _, _, _ => .error .depth
  | depth + 1, visiting, visited, a =>
      if a ∈ visiting then .error .cycle
      else if a ∈ visited then .ok visited
      else do
        let visited ← (succ a).foldlM (visit succ depth (a :: visiting)) visited
        return a :: visited

/-- Visit all roots. -/
def search (succ : α → List α) (depth : ℕ) (roots : List α) : Except SearchStop (List α) :=
  roots.foldlM (visit succ depth []) []

/-- The step from an element to one of its successors. -/
def Succ {α : Type*} (succ : α → List α) (a b : α) : Prop := b ∈ succ a

/-- A list without repetitions in which the successors of an element come after it. -/
inductive Topological {α : Type*} (succ : α → List α) : List α → Prop
  | nil : Topological succ []
  | cons {a : α} {xs : List α} (fresh : a ∉ xs) (closed : ∀ b ∈ succ a, b ∈ xs)
      (rest : Topological succ xs) : Topological succ (a :: xs)

section topological

variable {α : Type*} {succ : α → List α} {xs : List α} {a b : α}

theorem Topological.closed (h : Topological succ xs) (ha : a ∈ xs) (hb : b ∈ succ a) : b ∈ xs := by
  induction h with
  | nil => exact absurd ha List.not_mem_nil
  | cons _ hclosed _ ih =>
      rcases List.mem_cons.mp ha with rfl | ha
      · exact List.mem_cons_of_mem _ (hclosed b hb)
      · exact List.mem_cons_of_mem _ (ih ha)

theorem Topological.reached (h : Topological succ xs) (ha : a ∈ xs)
    (hab : Relation.TransGen (Succ succ) a b) : b ∈ xs := by
  induction hab with
  | single hb => exact h.closed ha hb
  | tail _ hb ih => exact h.closed ih hb

/-- No element of such a list lies on a cycle. -/
theorem Topological.acyclic (h : Topological succ xs) (ha : a ∈ xs) :
    ¬ Relation.TransGen (Succ succ) a a := by
  induction h generalizing a with
  | nil => exact absurd ha List.not_mem_nil
  | @cons first xs hfresh hclosed hrest ih =>
      rcases List.mem_cons.mp ha with rfl | ha
      · intro hcycle
        -- The first step goes into the rest of the list, which no further step leaves.
        obtain ⟨b, hb, hreach⟩ := Relation.TransGen.head'_iff.mp hcycle
        refine hfresh ?_
        rcases Relation.reflTransGen_iff_eq_or_transGen.mp hreach with heq | hreach
        · rw [heq]
          exact hclosed b hb
        · exact hrest.reached (hclosed b hb) hreach
      · exact ih ha

end topological

/-! ### What a visit comes to -/

/-- A search returns a list that is `good`, stops at a cycle where there is one, or is cut off. -/
def Settles {α : Type*} (good : List α → Prop) (hasCycle : Prop) : Except SearchStop (List α) → Prop
  | .ok visited => good visited
  | .error .cycle => hasCycle
  | .error .depth => True

section visits

variable {succ : α → List α} {depth : ℕ} {visiting visited bs : List α} {a : α}

theorem foldlM_settles {α : Type*} {bs visited : List α} {f : List α → α → Except SearchStop (List α)}
    {P : List α → Prop}
    {hasCycle : Prop} (hf : ∀ visited, ∀ b ∈ bs, P visited →
      Settles (fun later => P later ∧ visited ⊆ later ∧ b ∈ later) hasCycle (f visited b))
    (h : P visited) : Settles (fun later => P later ∧ visited ⊆ later ∧ ∀ b ∈ bs, b ∈ later) hasCycle
      (bs.foldlM f visited) := by
  induction bs generalizing visited with
  | nil => exact ⟨h, List.Subset.refl _, fun b hb => absurd hb List.not_mem_nil⟩
  | cons b bs ih =>
      rw [List.foldlM_cons]
      have hfirst := hf visited b List.mem_cons_self h
      cases hb : f visited b with
      | error stop =>
          rw [hb] at hfirst
          cases stop with
          | cycle => exact hfirst
          | depth => trivial
      | ok next =>
          rw [hb] at hfirst
          obtain ⟨hnext, hsub, hmem⟩ := hfirst
          have hrest := ih (fun v c hc => hf v c (List.mem_cons_of_mem b hc)) hnext
          show Settles _ hasCycle (bs.foldlM f next)
          cases hlater : bs.foldlM f next with
          | error stop =>
              rw [hlater] at hrest
              cases stop with
              | cycle => exact hrest
              | depth => trivial
          | ok later =>
              rw [hlater] at hrest
              obtain ⟨hgood, hsub', hall⟩ := hrest
              refine ⟨hgood, List.Subset.trans hsub hsub', ?_⟩
              intro c hc
              rcases List.mem_cons.mp hc with rfl | hc
              · exact hsub' hmem
              · exact hall c hc

/-- Every element that is being visited leads to the next one; none of them is listed before all its
successors are. -/
theorem visit_settles (hvisited : Topological succ visited)
    (hpath : ∀ v ∈ visiting, Relation.TransGen (Succ succ) v a) (hopen : ∀ v ∈ visiting, v ∉ visited) :
    Settles (fun later => (Topological succ later ∧ ∀ v ∈ visiting, v ∉ later) ∧
        visited ⊆ later ∧ a ∈ later)
      (∃ v, Relation.TransGen (Succ succ) v v) (visit succ depth visiting visited a) := by
  induction depth generalizing visiting visited a with
  | zero => trivial
  | succ depth ih =>
      rw [visit]
      split
      next hmem => exact ⟨a, hpath a hmem⟩
      next hnew =>
        split
        next hdone => exact ⟨⟨hvisited, hopen⟩, List.Subset.refl _, hdone⟩
        next hfresh =>
          have hall : Settles (fun later =>
                (Topological succ later ∧ ∀ v ∈ a :: visiting, v ∉ later) ∧ visited ⊆ later ∧
                  ∀ b ∈ succ a, b ∈ later)
              (∃ v, Relation.TransGen (Succ succ) v v)
              ((succ a).foldlM (visit succ depth (a :: visiting)) visited) :=
            foldlM_settles ?_ ?_
          · cases hlater : (succ a).foldlM (visit succ depth (a :: visiting)) visited with
            | error stop =>
                rw [hlater] at hall
                cases stop with
                | cycle => exact hall
                | depth => trivial
            | ok later =>
                rw [hlater] at hall
                obtain ⟨⟨htop, hout⟩, hsub, hclosed⟩ := hall
                refine ⟨⟨.cons (hout a List.mem_cons_self) hclosed htop, ?_⟩, ?_, List.mem_cons_self⟩
                · intro v hv
                  rw [List.mem_cons, not_or]
                  exact ⟨fun heq => hnew (heq ▸ hv), hout v (List.mem_cons_of_mem a hv)⟩
                · exact List.Subset.trans hsub (List.subset_cons_self a later)
          · rintro v b hb ⟨htop, hout⟩
            refine ih htop ?_ hout
            intro w hw
            rcases List.mem_cons.mp hw with rfl | hw
            · exact .single hb
            · exact (hpath w hw).tail hb
          · refine ⟨hvisited, ?_⟩
            intro v hv
            rcases List.mem_cons.mp hv with rfl | hv
            · exact hfresh
            · exact hopen v hv

/-- The elements that are being visited differ, so there are no more of them than elements. -/
theorem visit_ne_depth {elements : Finset α} (hclosed : ∀ a ∈ elements, ∀ b ∈ succ a, b ∈ elements)
    (hnodup : visiting.Nodup) (hsub : ∀ v ∈ visiting, v ∈ elements) (ha : a ∈ elements)
    (hdepth : elements.card < depth + visiting.length) :
    visit succ depth visiting visited a ≠ .error .depth := by
  induction depth generalizing visiting visited a with
  | zero =>
      have hcard : visiting.toFinset.card ≤ elements.card :=
        Finset.card_le_card (fun v hv => hsub v (List.mem_toFinset.mp hv))
      rw [List.toFinset_card_of_nodup hnodup] at hcard
      omega
  | succ depth ih =>
      rw [visit]
      split
      next => simp
      next hnew =>
        split
        next => simp
        next =>
          have hsub' : ∀ v ∈ a :: visiting, v ∈ elements := by
            intro v hv
            rcases List.mem_cons.mp hv with rfl | hv
            · exact ha
            · exact hsub v hv
          have hrest : ∀ bs : List α, (∀ b ∈ bs, b ∈ elements) → ∀ visited,
              bs.foldlM (visit succ depth (a :: visiting)) visited ≠ .error .depth := by
            intro bs hbs
            induction bs with
            | nil => intro visited hnil; cases hnil
            | cons b bs ihbs =>
                intro visited
                rw [List.foldlM_cons]
                have hb : visit succ depth (a :: visiting) visited b ≠ .error .depth :=
                  ih (List.nodup_cons.mpr ⟨hnew, hnodup⟩) hsub' (hbs b List.mem_cons_self)
                    (by rw [List.length_cons]; omega)
                cases hvisit : visit succ depth (a :: visiting) visited b with
                | error stop =>
                    intro hstop
                    rw [hvisit] at hb
                    exact hb hstop
                | ok later => exact ihbs (fun c hc => hbs c (List.mem_cons_of_mem b hc)) later
          have hall := hrest (succ a) (hclosed a ha) visited
          cases hfold : (succ a).foldlM (visit succ depth (a :: visiting)) visited with
          | error stop =>
              rw [hfold] at hall
              intro hstop
              exact hall hstop
          | ok later => intro hstop; cases hstop

end visits

/-! ### The whole search -/

section whole

variable {succ : α → List α} {depth : ℕ} {roots : List α} {elements : Finset α}

theorem search_ne_depth (hclosed : ∀ a ∈ elements, ∀ b ∈ succ a, b ∈ elements)
    (hroots : ∀ a ∈ roots, a ∈ elements) (hdepth : elements.card < depth) :
    search succ depth roots ≠ .error .depth := by
  suffices h : ∀ visited, roots.foldlM (visit succ depth []) visited ≠ .error .depth from h []
  intro visited
  induction roots generalizing visited with
  | nil => intro hnil; cases hnil
  | cons a roots ih =>
      rw [List.foldlM_cons]
      have ha : visit succ depth [] visited a ≠ .error .depth :=
        visit_ne_depth hclosed List.nodup_nil (fun v hv => absurd hv List.not_mem_nil)
          (hroots a List.mem_cons_self) (by simpa using hdepth)
      cases hvisit : visit succ depth [] visited a with
      | error stop =>
          intro hstop
          rw [hvisit] at ha
          exact ha hstop
      | ok later => exact ih (fun b hb => hroots b (List.mem_cons_of_mem a hb)) later

theorem search_settles : Settles
    (fun visited => Topological succ visited ∧ ∀ a ∈ roots, a ∈ visited)
    (∃ v, Relation.TransGen (Succ succ) v v) (search succ depth roots) := by
  have hall : Settles (fun later => Topological succ later ∧ [] ⊆ later ∧ ∀ a ∈ roots, a ∈ later)
      (∃ v, Relation.TransGen (Succ succ) v v) (roots.foldlM (visit succ depth []) []) :=
    foldlM_settles ?_ .nil
  · unfold search
    cases hfold : roots.foldlM (visit succ depth []) [] with
    | error stop =>
        rw [hfold] at hall
        cases stop with
        | cycle => exact hall
        | depth => trivial
    | ok visited =>
        rw [hfold] at hall
        exact ⟨hall.1, hall.2.2⟩
  · intro visited b _ hvisited
    have hvisit : Settles (fun later => (Topological succ later ∧ ∀ v ∈ [], v ∉ later) ∧
          visited ⊆ later ∧ b ∈ later)
        (∃ v, Relation.TransGen (Succ succ) v v) (visit succ depth [] visited b) :=
      visit_settles hvisited (fun v hv => absurd hv List.not_mem_nil)
        (fun v hv => absurd hv List.not_mem_nil)
    cases hb : visit succ depth [] visited b with
    | error stop =>
        rw [hb] at hvisit
        cases stop with
        | cycle => exact hvisit
        | depth => trivial
    | ok later =>
        rw [hb] at hvisit
        exact ⟨hvisit.1.1, hvisit.2.1, hvisit.2.2⟩

/-- **The search finds every cycle**: from all elements that have successors, it returns exactly when
there is no cycle, and stops at a cycle otherwise. -/
theorem search_ok_iff (hclosed : ∀ a ∈ elements, ∀ b ∈ succ a, b ∈ elements)
    (hroots : ∀ a, a ∈ roots ↔ a ∈ elements) (hnone : ∀ a ∉ elements, succ a = [])
    (hdepth : elements.card < depth) :
    (∃ visited, search succ depth roots = .ok visited) ↔ ∀ a, ¬ Relation.TransGen (Succ succ) a a := by
  have hsettles : Settles (fun visited => Topological succ visited ∧ ∀ a ∈ roots, a ∈ visited)
      (∃ v, Relation.TransGen (Succ succ) v v) (search succ depth roots) := search_settles
  constructor
  · rintro ⟨visited, hvisited⟩ a hcycle
    rw [hvisited] at hsettles
    obtain ⟨htop, hall⟩ := hsettles
    have ha : a ∈ elements := by
      by_contra hout
      obtain ⟨b, hb, -⟩ := Relation.TransGen.head'_iff.mp hcycle
      have hsucc : b ∈ succ a := hb
      rw [hnone a hout] at hsucc
      exact absurd hsucc List.not_mem_nil
    exact htop.acyclic (hall a ((hroots a).mpr ha)) hcycle
  · intro hacyclic
    have hdeep := search_ne_depth hclosed (fun a ha => (hroots a).mp ha) hdepth
    cases hsearch : search succ depth roots with
    | ok visited => exact ⟨visited, rfl⟩
    | error stop =>
        rw [hsearch] at hsettles hdeep
        cases stop with
        | depth => exact absurd rfl hdeep
        | cycle =>
            obtain ⟨v, hv⟩ := hsettles
            exact absurd hv (hacyclic v)

end whole

end Lib
