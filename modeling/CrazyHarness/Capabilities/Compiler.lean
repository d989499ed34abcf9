import CrazyHarness.Lib.Json
import CrazyHarness.Lib.Table

/-! # Capability disclosure

`CapabilityCatalog` and `CapabilityCompiler`: which of the registered capabilities a model may see in one
turn.  Of the catalog only the allowed names are authorized; a small authorized set is disclosed whole,
a larger one by rank for the query.  `str.lower` and the digest of a value are parameters. -/

namespace CrazyHarness

open Lib

/-! ### The catalog -/

/-- `CapabilityKind`. -/
inductive CapabilityKind where
  | skill
  | function
  | mcp
deriving DecidableEq

/-- `kind.value`. -/
def CapabilityKind.value : CapabilityKind → String
  | .skill => "skill"
  | .function => "function"
  | .mcp => "mcp"

/-- `CapabilityStub`. -/
structure CapabilityStub where
  name : String
  kind : CapabilityKind
  description : String
  tags : List String := []
deriving DecidableEq

/-- `CapabilityDefinition`. -/
structure CapabilityDefinition extends CapabilityStub where
  inputSchema : Dict := []
  instructions : String := ""
  provider : String := "local"
deriving DecidableEq

/-- The name of a definition. -/
def CapabilityDefinition.key (definition : CapabilityDefinition) : String := definition.name

/-- The definitions, in the order in which their names were first registered. -/
abbrev CapabilityCatalog := Table CapabilityDefinition.key

namespace CapabilityCatalog

/-- `register`. -/
def register (catalog : CapabilityCatalog) (definition : CapabilityDefinition) : CapabilityCatalog :=
  catalog.upsert definition

/-- `stubs`. -/
def stubs (catalog : CapabilityCatalog) : List CapabilityStub := catalog.rows.map (·.toCapabilityStub)

/-- `disclose`. -/
def disclose (catalog : CapabilityCatalog) (names : List String) : List CapabilityDefinition :=
  names.filterMap catalog.lookup

/-- The characters of a search term, `[a-zA-Z0-9_.-]`. -/
def isTermChar (c : Char) : Bool := c.isAlphanum || c ∈ ['_', '.', '-']

/-- `re.findall(r"[a-zA-Z0-9_.-]+", text)`: the runs of such characters, after the run `term`. -/
def termsOf (term : List Char) : List Char → List (List Char)
  | [] => if term = [] then [] else [term]
  | c :: cs =>
      if isTermChar c then termsOf (term ++ [c]) cs
      else if term = [] then termsOf [] cs else term :: termsOf [] cs

/-- What a term is looked for in. -/
def haystack (lower : String → String) (item : CapabilityDefinition) : String :=
  lower (item.name ++ " " ++ item.description ++ " " ++ item.instructions ++ " " ++
    " ".intercalate item.tags)

/-- How many of the terms of the query occur in the item. -/
def score (lower : String → String) (query : String) (item : CapabilityDefinition) : ℕ :=
  ((termsOf [] (lower query).toList).dedup.filter
    (fun term => term <:+: (haystack lower item).toList)).length

/-- The order of the search: higher scores first, then by name. -/
def Ranked (lower : String → String) (query : String) (a b : CapabilityDefinition) : Prop :=
  score lower query b < score lower query a ∨
    score lower query a = score lower query b ∧ a.name ≤ b.name

instance (lower : String → String) (query : String) : DecidableRel (Ranked lower query) :=
  fun _ _ => inferInstanceAs (Decidable (_ ∨ _))

/-- `search`, among the given names. -/
def search (catalog : CapabilityCatalog) (lower : String → String) (query : String) (limit : ℕ)
    (names : List String) : List CapabilityStub :=
  let candidates := catalog.rows.filter (·.name ∈ names)
  let ranked := candidates.insertionSort (Ranked lower query)
  ((ranked.take limit).filter (fun item => 0 < score lower query item)).map (·.toCapabilityStub)

end CapabilityCatalog

/-! ### The compiler -/

/-- `DisclosureStrategy`. -/
inductive DisclosureStrategy where
  | inlineAll
  | searchRanked
deriving DecidableEq

/-- `strategy.value`. -/
def DisclosureStrategy.value : DisclosureStrategy → String
  | .inlineAll => "inline_all"
  | .searchRanked => "search_ranked"

/-- `CapabilityCompileRequest`. -/
structure CapabilityCompileRequest where
  agentId : String
  assignmentId : String
  mode : String
  query : String := ""
  allowedNames : List String := []
  alwaysInclude : List String := []
  explicitNames : List String := []
  explicitSources : List (String × String) := []
deriving DecidableEq

/-- A dictionary from texts to texts. -/
abbrev TextDict := Table (Prod.fst : String × String → String)

/-- `dict(sorted(d.items()))`. -/
def TextDict.sortedItems (d : TextDict) : List (String × String) :=
  d.rows.insertionSort (fun a b => a.1 ≤ b.1)

/-- `CapabilityManifest`, without its own hash. -/
structure CapabilityManifestData where
  version : ℤ := 2
  agentId : String
  assignmentId : String
  mode : String
  strategy : DisclosureStrategy
  query : String
  catalogSize : ℕ
  authorizedNames : List String
  disclosedNames : List String
  withheldNames : List String
  excludedNames : List String
  reasons : List (String × String)
  recallSources : List (String × String)
  kinds : List (String × String)
  providers : List (String × String)
  definitionHashes : List (String × String)
deriving DecidableEq

/-- `CapabilityManifest`. -/
structure CapabilityManifest extends CapabilityManifestData where
  manifestHash : String
deriving DecidableEq

/-- `CompiledCapabilities`, of one compilation. -/
structure CapabilityDisclosure where
  definitions : List CapabilityDefinition
  manifest : CapabilityManifest
deriving DecidableEq

/-- A list of texts as JSON. -/
def textsJson (texts : List String) : Json := .list (texts.map .str)

/-- The items of a dictionary of texts as JSON. -/
def itemsJson (items : List (String × String)) : Json := .dict (items.map (fun item => (item.1, .str item.2)))

/-- `definition.model_dump(mode="json")`. -/
def CapabilityDefinition.dump (definition : CapabilityDefinition) : Json :=
  .dict [("name", .str definition.name), ("kind", .str definition.kind.value),
    ("description", .str definition.description), ("tags", textsJson definition.tags),
    ("input_schema", .dict definition.inputSchema), ("instructions", .str definition.instructions),
    ("provider", .str definition.provider)]

/-- `manifest_data`. -/
def CapabilityManifestData.dump (data : CapabilityManifestData) : Json :=
  .dict [("version", .int data.version), ("agent_id", .str data.agentId),
    ("assignment_id", .str data.assignmentId), ("mode", .str data.mode),
    ("strategy", .str data.strategy.value), ("query", .str data.query),
    ("catalog_size", .int data.catalogSize), ("authorized_names", textsJson data.authorizedNames),
    ("disclosed_names", textsJson data.disclosedNames),
    ("withheld_names", textsJson data.withheldNames),
    ("excluded_names", textsJson data.excludedNames), ("reasons", itemsJson data.reasons),
    ("recall_sources", itemsJson data.recallSources), ("kinds", itemsJson data.kinds),
    ("providers", itemsJson data.providers),
    ("definition_hashes", itemsJson data.definitionHashes)]

/-- `CapabilityCompiler`; the bound on a search is positive. -/
structure CapabilityCompiler where
  catalog : CapabilityCatalog
  inlineLimit : ℕ := 12
  searchLimit : ℕ := 6
  searchLimit_pos : 0 < searchLimit := by decide

namespace CapabilityCompiler

variable (lower : String → String) (stableHash : Json → String)

/-- The names of the catalog, sorted. -/
def catalogNames (C : CapabilityCompiler) : List String :=
  (C.catalog.stubs.map (·.name)).insertionSort (· ≤ ·)

/-- The names of the catalog that the request allows. -/
def authorized (C : CapabilityCompiler) (request : CapabilityCompileRequest) : List String :=
  C.catalogNames.filter (· ∈ request.allowedNames)

/-- The names of the catalog that the request does not allow. -/
def excluded (C : CapabilityCompiler) (request : CapabilityCompileRequest) : List String :=
  C.catalogNames.filter (· ∉ request.allowedNames)

/-- The names that are selected whatever the query is, with the reason. -/
def forced (C : CapabilityCompiler) (request : CapabilityCompileRequest) : TextDict :=
  let authorizedSet := C.authorized request
  let selected := request.alwaysInclude.foldl (fun (selected : TextDict) name =>
    if name ∈ authorizedSet then selected.upsert (name, "always_include") else selected) .empty
  request.explicitNames.foldl (fun (selected : TextDict) name =>
    if name ∈ authorizedSet then selected.upsert (name, "explicit_recall") else selected) selected

/-- Where the names that were asked for explicitly come from. -/
def recallSources (C : CapabilityCompiler) (request : CapabilityCompileRequest) : TextDict :=
  request.explicitNames.foldl (fun (sources : TextDict) name =>
    if name ∈ C.authorized request then
      match request.explicitSources.lookup name with
      | some source => if source ≠ "" then sources.upsert (name, source) else sources
      | none => sources
    else sources) .empty

/-- What the search finds among the authorized names that are not selected yet. -/
def queryMatches (C : CapabilityCompiler) (request : CapabilityCompileRequest) : List CapabilityStub :=
  C.catalog.search lower request.query C.searchLimit
    ((C.authorized request).filter (fun name => (C.forced request).lookup name = none))

/-- The names that are selected before the fallback. -/
def matched (C : CapabilityCompiler) (request : CapabilityCompileRequest) : TextDict :=
  (C.queryMatches lower request).foldl
    (fun (selected : TextDict) stub => selected.insertIgnore (stub.name, "query_match")) (C.forced request)

/-- The names selected among a large authorized set; a starter set where there are none. -/
def selected (C : CapabilityCompiler) (request : CapabilityCompileRequest) : TextDict :=
  if (C.matched lower request).rows = [] then
    ((C.authorized request).take C.searchLimit).foldl
      (fun (selected : TextDict) name => selected.upsert (name, "deterministic_fallback"))
      (C.matched lower request)
  else C.matched lower request

/-- The strategy, the names that are disclosed, why, and where they come from. -/
def disclosure (C : CapabilityCompiler) (request : CapabilityCompileRequest) :
    DisclosureStrategy × List String × List (String × String) × TextDict :=
  let authorized := C.authorized request
  if authorized.length ≤ C.inlineLimit then
    (.inlineAll, authorized, authorized.map (·, "small_authorized_catalog"), .empty)
  else
    let selected := C.selected lower request
    (.searchRanked, (selected.rows.map (·.1)).insertionSort (· ≤ ·), selected.rows,
      C.recallSources request)

/-- `compile`. -/
def compile (C : CapabilityCompiler) (request : CapabilityCompileRequest) : CapabilityDisclosure :=
  let authorized := C.authorized request
  let (strategy, disclosed, why, sources) := C.disclosure lower request
  let withheld := authorized.filter (· ∉ disclosed)
  let reasons : TextDict :=
    ((C.excluded request).map (·, "policy_denied") ++ why ++ withheld.map (·, "not_selected")).foldl
      (fun (reasons : TextDict) item => reasons.upsert item) .empty
  let definitions := C.catalog.disclose disclosed
  let perDefinition (value : CapabilityDefinition → String) : List (String × String) :=
    TextDict.sortedItems (definitions.foldl (fun (items : TextDict) definition =>
      items.upsert (definition.name, value definition)) .empty)
  let data : CapabilityManifestData :=
    { agentId := request.agentId
      assignmentId := request.assignmentId
      mode := request.mode
      strategy := strategy
      query := request.query
      catalogSize := C.catalogNames.length
      authorizedNames := authorized
      disclosedNames := disclosed
      withheldNames := withheld
      excludedNames := C.excluded request
      reasons := reasons.sortedItems
      recallSources := sources.sortedItems
      kinds := perDefinition (·.kind.value)
      providers := perDefinition (·.provider)
      definitionHashes := perDefinition (fun definition => stableHash definition.dump) }
  ⟨definitions, ⟨data, stableHash data.dump⟩⟩

end CapabilityCompiler

end CrazyHarness
