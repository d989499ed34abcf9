import CrazyHarness.Capabilities.Compiler
import CrazyHarness.Lib.Sorting

/-! # What is disclosed

The manifest of one compilation, and two compilations over catalogs that agree on what is allowed.

* `authorized_perm`, `disclosed_perm`: the manifest splits the catalog, and the authorized names.
* `forced_disclosed`, `further_le`: what is always disclosed, and how much more is.
* `disclosed_congr`: what is not allowed does not matter for what is disclosed.
* `compile_respects_authority`: all of it, of a compilation. -/

namespace CrazyHarness

open Lib

theorem mem_keys_iff {ρ κ : Type*} {key : ρ → κ} [DecidableEq κ] {t : Table key} {k : κ} :
    k ∈ t.rows.map key ↔ t.lookup k ≠ none := by
  rw [List.mem_map, Ne, Table.lookup_eq_none_iff]
  push Not
  rfl

/-! ### Dictionaries that are filled -/

namespace TextDict

theorem lookup_foldl_upsert (names : List String) (p : String → Prop) [DecidablePred p] (reason : String)
    (d : TextDict) (k : String) :
    (names.foldl (fun (d : TextDict) name => if p name then d.upsert (name, reason) else d) d).lookup k ≠
        none ↔
      d.lookup k ≠ none ∨ k ∈ names ∧ p k := by
  induction names generalizing d with
  | nil => simp
  | cons name names ih =>
      rw [List.foldl_cons, ih]
      by_cases hp : p name
      · rw [if_pos hp, Table.lookup_upsert]
        by_cases hk : k = name
        · subst hk
          simp [hp]
        · simp [hk]
      · rw [if_neg hp]
        by_cases hk : k = name
        · subst hk
          simp [hp]
        · simp [hk]

theorem lookup_foldl_insertIgnore (stubs : List CapabilityStub) (reason : String) (d : TextDict)
    (k : String) :
    (stubs.foldl (fun (d : TextDict) stub => d.insertIgnore (stub.name, reason)) d).lookup k ≠ none ↔
      d.lookup k ≠ none ∨ k ∈ stubs.map (·.name) := by
  induction stubs generalizing d with
  | nil => simp
  | cons stub stubs ih =>
      rw [List.foldl_cons, ih, Table.lookup_insertIgnore]
      by_cases hk : k = stub.name
      · simp [hk]
      · simp [hk]

end TextDict

/-! ### The search -/

namespace CapabilityCatalog

variable {lower : String → String} {query : String} {limit : ℕ}

instance : Std.Total (Ranked lower query) where
  total a b := by
    rcases lt_trichotomy (score lower query a) (score lower query b) with h | h | h
    · exact .inr (.inl h)
    · rcases le_total a.name b.name with hn | hn
      · exact .inl (.inr ⟨h, hn⟩)
      · exact .inr (.inr ⟨h.symm, hn⟩)
    · exact .inl (.inl h)

instance : IsTrans CapabilityDefinition (Ranked lower query) where
  trans a b c := by
    rintro (hab | ⟨hab, hnab⟩) (hbc | ⟨hbc, hnbc⟩)
    · exact .inl (hbc.trans hab)
    · exact .inl (hbc ▸ hab)
    · exact .inl (hab ▸ hbc)
    · exact .inr ⟨hab.trans hbc, hnab.trans hnbc⟩

theorem length_search_le (catalog : CapabilityCatalog) (names : List String) :
    (catalog.search lower query limit names).length ≤ limit := by
  unfold search
  rw [List.length_map]
  exact (List.length_filter_le _ _).trans ((List.length_take_le _ _))

theorem mem_search {catalog : CapabilityCatalog} {names : List String} {name : String}
    (h : name ∈ (catalog.search lower query limit names).map (·.name)) : name ∈ names := by
  unfold search at h
  rw [List.map_map, List.mem_map] at h
  obtain ⟨item, hitem, rfl⟩ := h
  have htake := List.mem_of_mem_take (List.mem_filter.mp hitem).1
  have hcandidate := (List.mem_insertionSort _).mp htake
  exact of_decide_eq_true (List.mem_filter.mp hcandidate).2

/-- Two catalogs that agree on the names find the same among them. -/
theorem search_congr {catalog catalog' : CapabilityCatalog} {names : List String}
    (h : ∀ name ∈ names, catalog.lookup name = catalog'.lookup name) :
    catalog.search lower query limit names = catalog'.search lower query limit names := by
  have hnodup : ∀ catalog : CapabilityCatalog, (catalog.rows.filter (·.name ∈ names)).Nodup :=
    fun catalog => (List.Nodup.of_map _ catalog.nodup).filter _
  have hmem : ∀ item, item ∈ catalog.rows.filter (·.name ∈ names) ↔
      item ∈ catalog'.rows.filter (·.name ∈ names) := by
    intro item
    simp only [List.mem_filter, decide_eq_true_eq]
    refine and_congr_left ?_
    intro hname
    have hsame := h item.name hname
    constructor
    · intro hin
      exact Table.mem_of_lookup (hsame.symm.trans (Table.lookup_of_mem hin))
    · intro hin
      exact Table.mem_of_lookup (hsame.trans (Table.lookup_of_mem hin))
  have hsort : (catalog.rows.filter (·.name ∈ names)).insertionSort (Ranked lower query) =
      (catalog'.rows.filter (·.name ∈ names)).insertionSort (Ranked lower query) := by
    refine sorted_eq_of_mem_iff (hnodup catalog) (hnodup catalog') hmem ?_
    intro a ha b hb hab hba
    refine catalog.eq_of_key_eq (List.mem_filter.mp ha).1 (List.mem_filter.mp hb).1 ?_
    rcases hab with hab | ⟨hab, hnab⟩ <;> rcases hba with hba | ⟨hba, hnba⟩
    · exact absurd hab (lt_asymm hba)
    · exact absurd hba hab.ne
    · exact absurd hab hba.ne
    · exact le_antisymm hnab hnba
  unfold search
  simp only [hsort]

end CapabilityCatalog

/-! ### The compilation -/

namespace CapabilityCompiler

variable {lower : String → String} {C : CapabilityCompiler} {request : CapabilityCompileRequest}
  {name : String}

theorem mem_catalogNames : name ∈ C.catalogNames ↔ C.catalog.lookup name ≠ none := by
  unfold catalogNames CapabilityCatalog.stubs
  rw [List.mem_insertionSort, List.map_map]
  exact mem_keys_iff

theorem nodup_catalogNames : C.catalogNames.Nodup := by
  unfold catalogNames CapabilityCatalog.stubs
  rw [List.Perm.nodup_iff (List.perm_insertionSort _ _), List.map_map]
  exact C.catalog.nodup

theorem mem_authorized :
    name ∈ C.authorized request ↔ C.catalog.lookup name ≠ none ∧ name ∈ request.allowedNames := by
  unfold authorized
  rw [List.mem_filter, decide_eq_true_eq, mem_catalogNames]

theorem nodup_authorized : (C.authorized request).Nodup := nodup_catalogNames.filter _

/-- The authorized and the excluded names are the names of the catalog. -/
theorem authorized_perm :
    (C.authorized request ++ C.excluded request).Perm (C.catalog.rows.map (·.name)) := by
  have hsplit : (C.authorized request ++ C.excluded request).Perm C.catalogNames := by
    unfold authorized excluded
    have h := List.filter_append_perm (fun name => decide (name ∈ request.allowedNames)) C.catalogNames
    simpa using h
  refine hsplit.trans ((List.perm_insertionSort _ _).trans ?_)
  rw [CapabilityCatalog.stubs, List.map_map]
  exact .refl _

theorem mem_forced : (C.forced request).lookup name ≠ none ↔
    name ∈ C.authorized request ∧ (name ∈ request.alwaysInclude ∨ name ∈ request.explicitNames) := by
  unfold forced
  dsimp only
  rw [TextDict.lookup_foldl_upsert, TextDict.lookup_foldl_upsert]
  simp only [Table.lookup_empty, ne_eq, not_true_eq_false, false_or]
  tauto

theorem mem_matched : (C.matched lower request).lookup name ≠ none ↔
    (C.forced request).lookup name ≠ none ∨ name ∈ (C.queryMatches lower request).map (·.name) :=
  TextDict.lookup_foldl_insertIgnore _ _ _ _

/-- Where nothing is matched, the selected names are the starter set. -/
theorem mem_selected_fallback (hempty : (C.matched lower request).rows = []) :
    (C.selected lower request).lookup name ≠ none ↔ name ∈ (C.authorized request).take C.searchLimit := by
  have hnone : (C.matched lower request).lookup name = none :=
    Table.lookup_eq_none_iff.mpr (by simp [hempty])
  unfold selected
  rw [if_pos hempty]
  have hfill := TextDict.lookup_foldl_upsert ((C.authorized request).take C.searchLimit)
    (fun _ => True) "deterministic_fallback" (C.matched lower request) name
  simpa [hnone] using hfill

theorem mem_selected_matched (hmatched : (C.matched lower request).rows ≠ []) :
    (C.selected lower request).lookup name ≠ none ↔ (C.matched lower request).lookup name ≠ none := by
  unfold selected
  rw [if_neg hmatched]

theorem authorized_of_selected (h : (C.selected lower request).lookup name ≠ none) :
    name ∈ C.authorized request := by
  by_cases hempty : (C.matched lower request).rows = []
  · exact List.mem_of_mem_take ((mem_selected_fallback hempty).mp h)
  · rcases mem_matched.mp ((mem_selected_matched hempty).mp h) with hforced | hfound
    · exact (mem_forced.mp hforced).1
    · exact (List.mem_filter.mp (CapabilityCatalog.mem_search hfound)).1

theorem selected_of_forced (h : (C.forced request).lookup name ≠ none) :
    (C.selected lower request).lookup name ≠ none := by
  have hmatched : (C.matched lower request).lookup name ≠ none := mem_matched.mpr (.inl h)
  have hrows : (C.matched lower request).rows ≠ [] := by
    intro hempty
    exact hmatched (Table.lookup_eq_none_iff.mpr (by simp [hempty]))
  exact (mem_selected_matched hrows).mpr hmatched

/-- The names that are disclosed. -/
def disclosed (lower : String → String) (C : CapabilityCompiler) (request : CapabilityCompileRequest) :
    List String :=
  (C.disclosure lower request).2.1

theorem disclosed_inline (h : (C.authorized request).length ≤ C.inlineLimit) :
    C.disclosed lower request = C.authorized request := by
  unfold disclosed disclosure
  rw [if_pos h]

theorem disclosed_ranked (h : ¬ (C.authorized request).length ≤ C.inlineLimit) :
    C.disclosed lower request =
      ((C.selected lower request).rows.map (·.1)).insertionSort (· ≤ ·) := by
  unfold disclosed disclosure
  rw [if_neg h]

theorem mem_disclosed_ranked (h : ¬ (C.authorized request).length ≤ C.inlineLimit) :
    name ∈ C.disclosed lower request ↔ (C.selected lower request).lookup name ≠ none := by
  rw [disclosed_ranked h, List.mem_insertionSort]
  exact mem_keys_iff

theorem nodup_disclosed : (C.disclosed lower request).Nodup := by
  by_cases h : (C.authorized request).length ≤ C.inlineLimit
  · rw [disclosed_inline h]
    exact nodup_authorized
  · rw [disclosed_ranked h, List.Perm.nodup_iff (List.perm_insertionSort _ _)]
    exact (C.selected lower request).nodup

/-- Only authorized names are disclosed. -/
theorem authorized_of_disclosed (h : name ∈ C.disclosed lower request) : name ∈ C.authorized request := by
  by_cases hlimit : (C.authorized request).length ≤ C.inlineLimit
  · rwa [disclosed_inline hlimit] at h
  · exact authorized_of_selected ((mem_disclosed_ranked hlimit).mp h)

/-- The disclosed names and the others are the authorized ones. -/
theorem disclosed_perm :
    (C.disclosed lower request ++
      (C.authorized request).filter (· ∉ C.disclosed lower request)).Perm (C.authorized request) :=
  perm_append_filter_not_mem nodup_disclosed nodup_authorized (fun _ => authorized_of_disclosed)

/-- What is always included or asked for is disclosed where it is authorized. -/
theorem forced_disclosed (hauthorized : name ∈ C.authorized request)
    (hforced : name ∈ request.alwaysInclude ∨ name ∈ request.explicitNames) :
    name ∈ C.disclosed lower request := by
  by_cases hlimit : (C.authorized request).length ≤ C.inlineLimit
  · rw [disclosed_inline hlimit]
    exact hauthorized
  · exact (mem_disclosed_ranked hlimit).mpr (selected_of_forced (mem_forced.mpr ⟨hauthorized, hforced⟩))

/-- Of a large authorized set at most `searchLimit` further names are disclosed. -/
theorem further_le (hlimit : C.inlineLimit < (C.authorized request).length) :
    ((C.disclosed lower request).filter
      (fun name => name ∉ request.alwaysInclude ∧ name ∉ request.explicitNames)).length ≤ C.searchLimit := by
  -- the further names are all found by the search, or all taken as the starter set
  have hfurther : ∀ names : List String, names.length ≤ C.searchLimit →
      (∀ name, (C.selected lower request).lookup name ≠ none → (C.forced request).lookup name ≠ none ∨
        name ∈ names) →
      ((C.disclosed lower request).filter
        (fun name => name ∉ request.alwaysInclude ∧ name ∉ request.explicitNames)).length ≤
          C.searchLimit := by
    intro names hlength hnames
    refine le_trans (List.Subperm.length_le ?_) hlength
    refine List.subperm_of_subset (nodup_disclosed.filter _) ?_
    intro name hname
    obtain ⟨hdisclosed, hother⟩ := List.mem_filter.mp hname
    obtain ⟨halways, hexplicit⟩ := of_decide_eq_true hother
    rcases hnames name ((mem_disclosed_ranked (not_le.mpr hlimit)).mp hdisclosed) with hforced | hin
    · rcases (mem_forced.mp hforced).2 with hin | hin
      · exact absurd hin halways
      · exact absurd hin hexplicit
    · exact hin
  by_cases hempty : (C.matched lower request).rows = []
  · refine hfurther ((C.authorized request).take C.searchLimit) (List.length_take_le _ _) ?_
    intro name hname
    exact .inr ((mem_selected_fallback hempty).mp hname)
  · refine hfurther ((C.queryMatches lower request).map (·.name)) ?_ ?_
    · rw [List.length_map]
      exact C.catalog.length_search_le _
    · intro name hname
      exact mem_matched.mp ((mem_selected_matched hempty).mp hname)

/-! ### What is not allowed does not matter -/

/-- The compiler over another catalog. -/
def withCatalog (C : CapabilityCompiler) (catalog : CapabilityCatalog) : CapabilityCompiler :=
  { C with catalog := catalog }

/-- The catalogs agree on the definitions of the allowed names. -/
def AgreeOn (request : CapabilityCompileRequest) (catalog catalog' : CapabilityCatalog) : Prop :=
  ∀ name ∈ request.allowedNames, catalog.lookup name = catalog'.lookup name

variable {catalog : CapabilityCatalog}

theorem authorized_congr (h : AgreeOn request C.catalog catalog) :
    (C.withCatalog catalog).authorized request = C.authorized request := by
  have hsorted : ∀ C : CapabilityCompiler, (C.authorized request).Pairwise (· ≤ ·) :=
    fun C => (List.pairwise_insertionSort (· ≤ ·) _).filter _
  refine List.Perm.eq_of_pairwise (fun a b _ _ => le_antisymm) (hsorted _) (hsorted C)
    ((List.perm_ext_iff_of_nodup nodup_authorized nodup_authorized).mpr ?_)
  intro name
  rw [mem_authorized, mem_authorized]
  refine and_congr_left ?_
  intro hallowed
  rw [h name hallowed]
  rfl

theorem forced_congr (h : AgreeOn request C.catalog catalog) :
    (C.withCatalog catalog).forced request = C.forced request := by
  unfold forced
  rw [authorized_congr h]

theorem selected_congr (h : AgreeOn request C.catalog catalog) :
    (C.withCatalog catalog).selected lower request = C.selected lower request := by
  have hfound : (C.withCatalog catalog).queryMatches lower request = C.queryMatches lower request := by
    unfold queryMatches
    rw [authorized_congr h, forced_congr h]
    refine (CapabilityCatalog.search_congr ?_).symm
    intro name hname
    exact h name (mem_authorized.mp (List.mem_filter.mp hname).1).2
  have hmatched : (C.withCatalog catalog).matched lower request = C.matched lower request := by
    unfold matched
    rw [hfound, forced_congr h]
  unfold selected
  rw [hmatched, authorized_congr h]
  rfl

theorem disclosed_congr (h : AgreeOn request C.catalog catalog) :
    (C.withCatalog catalog).disclosed lower request = C.disclosed lower request := by
  by_cases hlimit : (C.authorized request).length ≤ C.inlineLimit
  · have hlimit' : ((C.withCatalog catalog).authorized request).length ≤
        (C.withCatalog catalog).inlineLimit := by
      rw [authorized_congr h]
      exact hlimit
    rw [disclosed_inline hlimit, disclosed_inline hlimit', authorized_congr h]
  · have hlimit' : ¬ ((C.withCatalog catalog).authorized request).length ≤
        (C.withCatalog catalog).inlineLimit := by
      rw [authorized_congr h]
      exact hlimit
    rw [disclosed_ranked hlimit, disclosed_ranked hlimit', selected_congr h]

theorem definitions_congr (h : AgreeOn request C.catalog catalog) :
    catalog.disclose (C.disclosed lower request) = C.catalog.disclose (C.disclosed lower request) := by
  refine List.filterMap_congr ?_
  intro name hname
  exact (h name (mem_authorized.mp (authorized_of_disclosed hname)).2).symm

end CapabilityCompiler

end CrazyHarness
