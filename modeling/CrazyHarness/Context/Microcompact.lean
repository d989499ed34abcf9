import CrazyHarness.Context.Artifacts
import CrazyHarness.Runtime.Store

/-! # Microcompaction

`microcompact`: every item is discarded, replaced by a reference, written to the artifact store, or left as it is.

* `microcompact_spec`: what becomes of the items, in order, for every store and every list.
* `compacted_iff`: the texts can be read back exactly where no offloaded text has a carriage return. -/

namespace CrazyHarness

open Lib

/-! ### Items -/

/-- `importance`. -/
inductive ItemImportance where
  | low
  | normal
  | high
  | critical
deriving DecidableEq

/-- `ContextItem`. -/
structure ContextItem where
  role : String
  content : String
  importance : ItemImportance := .normal
  kind : String := "message"
  artifactRef : Option ArtifactRef := none
  hydrationTurnsRemaining : ℤ := 0
  sourceRef : Option String := none
deriving DecidableEq

namespace ContextItem

/-- `protected`. -/
def Protected (item : ContextItem) : Prop :=
  item.importance ∈ [ItemImportance.high, .critical] ∨
    item.kind ∈ ["policy", "agent_card", "assignment_contract", "runtime_manifest", "active_skill"]

instance : DecidablePred Protected := fun _ => inferInstanceAs (Decidable (_ ∨ _))

/-- The item is discarded. -/
def Discardable (item : ContextItem) : Prop :=
  item.importance = .low ∧ item.kind ∈ ["transient", "nudge", "duplicate_ok"]

instance : DecidablePred Discardable := fun _ => inferInstanceAs (Decidable (_ ∧ _))

/-- The text of the item, which has no reference yet, is written to the store. -/
def Offloads (offloadChars : ℕ) (item : ContextItem) : Prop :=
  ¬ item.Protected ∧ item.kind ∈ ["tool_result", "log", "diff", "webpage", "file"] ∧
    item.content.length > offloadChars

instance (offloadChars : ℕ) : DecidablePred (Offloads offloadChars) :=
  fun _ => inferInstanceAs (Decidable (_ ∧ _))

end ContextItem

/-- `_artifact_placeholder`. -/
def artifactPlaceholder (ref : ArtifactRef) : String :=
  "[artifact_ref uri=" ++ ref.uri ++ " kind=" ++ ref.kind ++ " summary=" ++ ref.summary ++ "]"

/-! ### The pass -/

/-- `MicrocompactResult`. -/
structure MicrocompactResult where
  inlineItems : List ContextItem := []
  offloadedRefs : List ArtifactRef := []
  discardedCount : ℕ := 0

/-- The result with one more item, and its reference if it has one. -/
def MicrocompactResult.push (result : MicrocompactResult) (item : ContextItem) : MicrocompactResult where
  inlineItems := result.inlineItems ++ [item]
  offloadedRefs := result.offloadedRefs ++ item.artifactRef.toList
  discardedCount := result.discardedCount

/-- An item whose text is in the store: a placeholder, or the text for its remaining turns. -/
def referenced (item : ContextItem) (ref : ArtifactRef) : ContextItem :=
  if item.hydrationTurnsRemaining ≤ 0 then
    { item with content := artifactPlaceholder ref, hydrationTurnsRemaining := 0 }
  else { item with hydrationTurnsRemaining := item.hydrationTurnsRemaining - 1 }

/-- `summary` of an offloaded item. -/
def offloadSummary (item : ContextItem) : String :=
  "offloaded " ++ item.kind ++ " (" ++ toString item.content.length ++ " chars)"

/-- One round of the loop. -/
def compactItem (offloadChars : ℕ) (acc : MicrocompactResult × ArtifactStore) (item : ContextItem) :
    MicrocompactResult × ArtifactStore :=
  if item.Discardable then ({ acc.1 with discardedCount := acc.1.discardedCount + 1 }, acc.2)
  else
    match item.artifactRef with
    | some ref => (acc.1.push (referenced item ref), acc.2)
    | none =>
        if item.Offloads offloadChars then
          let (ref, store) := acc.2.writeText item.kind item.content (offloadSummary item)
          (acc.1.push { item with content := artifactPlaceholder ref, artifactRef := some ref }, store)
        else (acc.1.push item, acc.2)

/-- `microcompact`. -/
def microcompact (offloadChars : ℕ) (items : List ContextItem) (store : ArtifactStore) :
    MicrocompactResult × ArtifactStore :=
  items.foldl (compactItem offloadChars) ({}, store)

/-- `hydrate`. -/
def hydrate (item : ContextItem) (store : ArtifactStore) : Except RuntimeError ContextItem :=
  match item.artifactRef with
  | none => .error (.valueError "cannot hydrate a context item without artifact_ref")
  | some ref =>
      match store.readText ref with
      | none => .error (.runtimeError "FileNotFoundError")
      | some text => .ok { item with content := text, hydrationTurnsRemaining := 1 }

/-! ### What becomes of an item -/

/-- What an item that is kept becomes. -/
inductive BecomesIn (offloadChars : ℕ) (store : ArtifactStore) (item : ContextItem) : ContextItem → Prop
  | inline (href : item.artifactRef = none) (hstays : ¬ item.Offloads offloadChars) :
      BecomesIn offloadChars store item item
  | referenced {ref : ArtifactRef} (href : item.artifactRef = some ref) :
      BecomesIn offloadChars store item (referenced item ref)
  | offloaded {ref : ArtifactRef} (href : item.artifactRef = none) (hoffloads : item.Offloads offloadChars)
      (hfile : store.files ref.uri = some item.content) :
      BecomesIn offloadChars store item
        { item with content := artifactPlaceholder ref, artifactRef := some ref }

variable {offloadChars : ℕ}

theorem BecomesIn.mono {store store' : ArtifactStore} (h : store.Extends store') {item kept : ContextItem}
    (hkept : BecomesIn offloadChars store item kept) : BecomesIn offloadChars store' item kept := by
  cases hkept with
  | inline href hstays => exact .inline href hstays
  | referenced href => exact .referenced href
  | offloaded href hoffloads hfile => exact .offloaded href hoffloads (h _ _ hfile)

/-- One round discards the item, or puts what it becomes at the end. -/
theorem compactItem_spec (acc : MicrocompactResult × ArtifactStore) (item : ContextItem) :
    acc.2.Extends (compactItem offloadChars acc item).2 ∧
      (item.Discardable ∧ (compactItem offloadChars acc item).1.inlineItems = acc.1.inlineItems ∧
          (compactItem offloadChars acc item).1.discardedCount = acc.1.discardedCount + 1 ∨
        ¬ item.Discardable ∧ ∃ kept, BecomesIn offloadChars (compactItem offloadChars acc item).2 item kept ∧
          (compactItem offloadChars acc item).1.inlineItems = acc.1.inlineItems ++ [kept] ∧
          (compactItem offloadChars acc item).1.discardedCount = acc.1.discardedCount) := by
  unfold compactItem
  by_cases hdiscard : item.Discardable
  · rw [if_pos hdiscard]
    exact ⟨.refl _, .inl ⟨hdiscard, rfl, rfl⟩⟩
  · rw [if_neg hdiscard]
    cases href : item.artifactRef with
    | some ref => exact ⟨.refl _, .inr ⟨hdiscard, _, .referenced href, rfl, rfl⟩⟩
    | none =>
        dsimp only
        by_cases hoffloads : item.Offloads offloadChars
        · rw [if_pos hoffloads]
          exact ⟨acc.2.writeText_extends item.kind item.content (offloadSummary item), .inr ⟨hdiscard, _,
            .offloaded href hoffloads (acc.2.files_writeText _ _ _), rfl, rfl⟩⟩
        · rw [if_neg hoffloads]
          exact ⟨.refl _, .inr ⟨hdiscard, _, .inline href hoffloads, rfl, rfl⟩⟩

/-- The items that are not discarded are kept in their order, each as what it becomes. -/
theorem foldl_compactItem_spec (items : List ContextItem) (acc : MicrocompactResult × ArtifactStore) :
    ∃ kept, acc.2.Extends (items.foldl (compactItem offloadChars) acc).2 ∧
      (items.foldl (compactItem offloadChars) acc).1.inlineItems = acc.1.inlineItems ++ kept ∧
      (items.foldl (compactItem offloadChars) acc).1.discardedCount =
        acc.1.discardedCount + items.countP (·.Discardable) ∧
      List.Forall₂ (BecomesIn offloadChars (items.foldl (compactItem offloadChars) acc).2)
        (items.filter (¬ ·.Discardable)) kept := by
  induction items generalizing acc with
  | nil => exact ⟨[], .refl _, (List.append_nil _).symm, rfl, .nil⟩
  | cons item items ih =>
      obtain ⟨hextends, hitem⟩ := compactItem_spec acc item
      obtain ⟨kept, hextends', hinline, hcount, hkept⟩ := ih (compactItem offloadChars acc item)
      rw [List.foldl_cons]
      rcases hitem with ⟨hdiscard, hsame, hone⟩ | ⟨hdiscard, first, hfirst, hpush, hsame⟩
      · refine ⟨kept, hextends.trans hextends', hinline.trans (by rw [hsame]), ?_, ?_⟩
        · rw [hcount, hone, List.countP_cons_of_pos (by simpa using hdiscard)]
          omega
        · rwa [List.filter_cons_of_neg (by simpa using hdiscard)]
      · refine ⟨first :: kept, hextends.trans hextends', ?_, ?_, ?_⟩
        · rw [hinline, hpush, List.append_assoc, List.singleton_append]
        · rw [hcount, hsame, List.countP_cons_of_neg (by simpa using hdiscard)]
        · rw [List.filter_cons_of_pos (by simpa using hdiscard)]
          exact .cons (hfirst.mono hextends') hkept

theorem microcompact_spec (items : List ContextItem) (store : ArtifactStore) :
    store.Extends (microcompact offloadChars items store).2 ∧
      (microcompact offloadChars items store).1.discardedCount = items.countP (·.Discardable) ∧
      List.Forall₂ (BecomesIn offloadChars (microcompact offloadChars items store).2)
        (items.filter (¬ ·.Discardable)) (microcompact offloadChars items store).1.inlineItems := by
  obtain ⟨kept, hextends, hinline, hcount, hkept⟩ :=
    foldl_compactItem_spec items ({}, store)
  rw [List.nil_append] at hinline
  rw [Nat.zero_add] at hcount
  exact ⟨hextends, hcount, hinline ▸ hkept⟩

/-! ### Nothing is lost -/

/-- The original text of an item: its own, or the one that its reference stores. -/
def Stores (store : ArtifactStore) (item : ContextItem) (text : String) : Prop :=
  match item.artifactRef with
  | none => text = item.content
  | some ref => store.readText ref = some text

/-- What is kept of an item with this original text. -/
structure KeptAs (store : ArtifactStore) (text : String) (item kept : ContextItem) : Prop where
  same : kept.role = item.role ∧ kept.kind = item.kind ∧ kept.importance = item.importance ∧
    kept.sourceRef = item.sourceRef
  protected_text : item.Protected → item.artifactRef = none → kept.content = item.content
  readable : (kept.artifactRef = none ∧ kept.content = text) ∨
    ∃ ref, kept.artifactRef = some ref ∧ store.readText ref = some text

/-- What a pass over the items promises, for their original texts. -/
structure Compacted (original : ContextItem → String) (items : List ContextItem)
    (result : MicrocompactResult) (store : ArtifactStore) : Prop where
  counts : result.inlineItems.length + result.discardedCount = items.length
  kept : List.Forall₂ (fun item kept => KeptAs store (original item) item kept)
    (items.filter (¬ ·.Discardable)) result.inlineItems

/-- Every text that is offloaded reads back as it was written. -/
def OffloadsReadBack (offloadChars : ℕ) (items : List ContextItem) : Prop :=
  ∀ item ∈ items, item.artifactRef = none → item.Offloads offloadChars → '\r' ∉ item.content.toList

theorem ContextItem.Offloads.not_discardable {item : ContextItem} (h : item.Offloads offloadChars) :
    ¬ item.Discardable := by
  rintro ⟨_, hkind⟩
  have hkinds := h.2.1
  simp only [List.mem_cons, List.not_mem_nil, or_false] at hkind hkinds
  rcases hkind with h' | h' | h' <;> rw [h'] at hkinds <;> simp at hkinds

theorem keptAs_of_becomes {store store' : ArtifactStore} (hextends : store.Extends store')
    {item kept : ContextItem} {text : String} (hstores : Stores store item text)
    (hreads : item.artifactRef = none → item.Offloads offloadChars → '\r' ∉ item.content.toList)
    (h : BecomesIn offloadChars store' item kept) : KeptAs store' text item kept := by
  unfold Stores at hstores
  cases h with
  | inline href hstays =>
      rw [href] at hstores
      exact ⟨⟨rfl, rfl, rfl, rfl⟩, fun _ _ => rfl, .inl ⟨href, hstores.symm⟩⟩
  | @referenced ref href =>
      rw [href] at hstores
      unfold CrazyHarness.referenced
      refine ⟨?_, fun _ hnone => ?_, .inr ⟨ref, ?_, hextends.readText hstores⟩⟩
      · split <;> exact ⟨rfl, rfl, rfl, rfl⟩
      · rw [href] at hnone
        cases hnone
      · split <;> exact href
  | @offloaded ref href hoffloads hfile =>
      rw [href] at hstores
      subst hstores
      refine ⟨⟨rfl, rfl, rfl, rfl⟩, fun hprotected _ => (hoffloads.1 hprotected).elim, .inr ⟨ref, rfl, ?_⟩⟩
      unfold ArtifactStore.readText
      rw [hfile, Option.map_some, universalNewlines_eq_iff.mpr (hreads href hoffloads)]

/-- What an offloaded item is kept as reads back only without a carriage return. -/
theorem reads_of_keptAs {store : ArtifactStore} {item kept : ContextItem}
    (href : item.artifactRef = none) (hoffloads : item.Offloads offloadChars)
    (h : BecomesIn offloadChars store item kept) (hkept : KeptAs store item.content item kept) :
    '\r' ∉ item.content.toList := by
  cases h with
  | inline _ hstays => exact (hstays hoffloads).elim
  | referenced href' =>
      rw [href] at href'
      cases href'
  | @offloaded ref _ _ hfile =>
      rcases hkept.readable with ⟨hnone, _⟩ | ⟨ref', href', hread⟩
      · cases hnone
      · obtain rfl := Option.some.inj href'
        unfold ArtifactStore.readText at hread
        rw [hfile, Option.map_some] at hread
        exact universalNewlines_eq_iff.mp (Option.some.inj hread)

theorem forall₂_imp_mem {α β : Type} {R S : α → β → Prop} {xs : List α} {ys : List β}
    (h : List.Forall₂ R xs ys) (himp : ∀ x ∈ xs, ∀ y, R x y → S x y) : List.Forall₂ S xs ys := by
  induction h with
  | nil => exact .nil
  | @cons x y xs ys hxy _ ih =>
      exact .cons (himp x List.mem_cons_self y hxy)
        (ih (fun x' hx' => himp x' (List.mem_cons_of_mem x hx')))

theorem exists_of_forall₂_and {α β : Type} {R S : α → β → Prop} {xs : List α} {ys : List β}
    (hR : List.Forall₂ R xs ys) (hS : List.Forall₂ S xs ys) {x : α} (hx : x ∈ xs) :
    ∃ y, R x y ∧ S x y := by
  induction hR with
  | nil => cases hx
  | @cons x' y' xs ys hxy _ ih =>
      cases hS with
      | cons hxy' hrest =>
          rcases List.mem_cons.mp hx with rfl | hx
          · exact ⟨y', hxy, hxy'⟩
          · exact ih hrest hx

/-- A pass keeps its promise exactly where the offloaded texts read back as they were written. -/
theorem compacted_iff {original : ContextItem → String} {items : List ContextItem} {store : ArtifactStore}
    (hstores : ∀ item ∈ items, Stores store item (original item)) :
    Compacted original items (microcompact offloadChars items store).1
        (microcompact offloadChars items store).2 ↔
      OffloadsReadBack offloadChars items := by
  obtain ⟨hextends, hcount, hbecomes⟩ := microcompact_spec items store
  constructor
  · intro h item hitem href hoffloads
    have hmem : item ∈ items.filter (¬ ·.Discardable) :=
      List.mem_filter.mpr ⟨hitem, by simpa using hoffloads.not_discardable⟩
    obtain ⟨kept, hkept, hkeptAs⟩ := exists_of_forall₂_and hbecomes h.kept hmem
    have hself := hstores item hitem
    unfold Stores at hself
    rw [href] at hself
    rw [hself] at hkeptAs
    exact reads_of_keptAs href hoffloads hkept hkeptAs
  · intro hreads
    refine ⟨?_, ?_⟩
    · have hsplit := List.length_eq_length_filter_add (l := items) (fun item => item.Discardable)
      rw [← hbecomes.length_eq, hcount, List.countP_eq_length_filter, hsplit, Nat.add_comm]
      simp only [decide_not]
    · refine forall₂_imp_mem hbecomes ?_
      intro item hitem kept hkept
      have hmem := (List.mem_filter.mp hitem).1
      exact keptAs_of_becomes hextends (hstores item hmem) (hreads item hmem) hkept

/-- A kept item with a reference is hydrated with the original text. -/
theorem hydrate_keptAs {store : ArtifactStore} {text : String} {item kept : ContextItem}
    (h : KeptAs store text item kept) (href : kept.artifactRef ≠ none) :
    hydrate kept store = .ok { kept with content := text, hydrationTurnsRemaining := 1 } := by
  rcases h.readable with ⟨hnone, _⟩ | ⟨ref, hsome, hread⟩
  · exact (href hnone).elim
  · unfold hydrate
    rw [hsome]
    simp [hread]

end CrazyHarness
