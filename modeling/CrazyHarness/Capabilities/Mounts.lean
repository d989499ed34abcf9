import CrazyHarness.Capabilities.Compiler
import CrazyHarness.Lib.Decode
import CrazyHarness.Lib.Except
import CrazyHarness.Lib.Layers
import CrazyHarness.Lib.Run
import CrazyHarness.Lib.Words
import CrazyHarness.Tools.Schemas

/-! # Mounts of MCP servers

`core/capabilities/mcp.py` and `core/tools/registry.py`: a mount asks its server for the tools that it
lists, and replaces in the registry and in the catalog what it has mounted before by the tools among
them that are granted.

* `ToolRegistry`, `CapabilityCatalog`: the two stores, keyed by name.
* `MCPToolMount.planTools`: the planning phase, which may raise and writes nothing.
* `MCPToolMount.refresh`: the whole, on the stores and the names mounted so far; what it leaves when it
  raises is part of what it returns.

A handler is what the registry holds of it, a value of any type. -/

namespace CrazyHarness

open Lib

/-! ### The stores -/

/-- `ToolSpec` with all its fields. -/
structure FullToolSpec extends ToolSpec where
  description : String
  useWhen : String := ""
  doNotUseWhen : String := ""
  approvalRequired : Bool := false
  outputOffloadPolicy : String := "auto"
  allowedAgents : Option (List String) := none
  allowedAssignments : Option (List String) := none
  allowedModes : Option (List String) := none
deriving DecidableEq

/-- The entries of `_specs` and `_handlers` under one name. -/
structure RegisteredTool (H : Type) where
  spec : FullToolSpec
  handler : H
deriving DecidableEq

/-- The name of a tool. -/
def RegisteredTool.name {H : Type} (tool : RegisteredTool H) : String := tool.spec.name

/-- `ToolRegistry`. -/
abbrev ToolRegistry (H : Type) := Table (RegisteredTool.name (H := H))

namespace ToolRegistry

variable {H : Type}

/-- `register`. -/
def register (registry : ToolRegistry H) (tool : RegisteredTool H) : ToolRegistry H :=
  registry.upsert tool

/-- `unregister`. -/
def unregister (registry : ToolRegistry H) (name : String) : ToolRegistry H := registry.delete name

/-- `has`. -/
def has (registry : ToolRegistry H) (name : String) : Bool := (registry.lookup name).isSome

end ToolRegistry

namespace CapabilityCatalog

/-- `has`. -/
def has (catalog : CapabilityCatalog) (name : String) : Bool := (catalog.lookup name).isSome

/-- `unregister`. -/
def unregister (catalog : CapabilityCatalog) (name : String) : CapabilityCatalog := catalog.delete name

end CapabilityCatalog

/-! ### What servers list and what is granted -/

/-- `MCPToolDescriptor`. -/
structure MCPToolDescriptor where
  name : SizedString 1 (some 128)
  description : String := ""
  inputSchema : Dict := [("type", .str "object"), ("additionalProperties", .bool false)]
  outputSchema : Option Dict := none
deriving DecidableEq

/-- `MCPToolGrant`. -/
structure MCPToolGrant where
  sideEffectLevel : String := "external"
  approvalRequired : Bool := true
  outputOffloadPolicy : String := "auto"
  isReadOnly : Bool := false
  isDestructive : Bool := false
  isConcurrencySafe : Bool := false
deriving DecidableEq

/-- `MCPMountSnapshot`. -/
structure MCPMountSnapshot where
  serverName : String
  mountedNames : List String
  excludedRemoteNames : List String
  missingGrantNames : List String
  removedNames : List String
deriving DecidableEq

/-- What a refresh raises: an exception of the server's client, or a `ValueError`. -/
inductive MountError where
  | client (message : String)
  | valueError (message : String)
deriving DecidableEq

/-- `_NAME_PATTERN.fullmatch(value)`, of a value that is not empty. -/
def validMCPName (value : String) : Bool :=
  value ≠ "" && value.toList.all CapabilityCatalog.isTermChar

/-- `_validate_name`. -/
def validateMCPName (value label : String) : Except MountError Unit :=
  if validMCPName value then .ok ()
  else .error (.valueError ("invalid MCP " ++ label ++ ": " ++ Json.reprStr value))

/-- `_validated_input_schema`. -/
def validatedInputSchema (descriptor : MCPToolDescriptor) : Except MountError Dict :=
  if Dict.getD descriptor.inputSchema "type" (.str "object") = .str "object" then
    .ok descriptor.inputSchema
  else
    .error (.valueError
      ("MCP tool input schema must describe an object: " ++ descriptor.name.1))

/-- `_clean_description`. -/
def cleanDescription (description remoteName : String) : String :=
  let normalized := joinWords description
  let shown := if normalized = "" then "MCP tool " ++ remoteName else normalized
  String.ofList (shown.toList.take 1000)

/-! ### Mounts -/

/-- `MCPToolMount`: its server, the grants by remote name and `_handler`.  What it has mounted is
kept with the stores. -/
structure MCPToolMount (H : Type) where
  serverName : String
  grants : Table (Prod.fst : String × MCPToolGrant → String)
  handler : String → String → H
  valid_serverName : validMCPName serverName = true

/-- A tool that is to be registered, with its capability; both have its name. -/
structure PlannedTool (H : Type) where
  tool : RegisteredTool H
  definition : CapabilityDefinition
  same_name : definition.name = tool.name

/-- The stores, and `_mounted_names` of one mount. -/
structure MountState (H : Type) where
  registry : ToolRegistry H
  catalog : CapabilityCatalog
  mountedNames : List String

namespace MountState

variable {H : Type}

/-- `registry.unregister(name)`, `catalog.unregister(name)`. -/
def unregister (s : MountState H) (name : String) : MountState H :=
  { s with registry := s.registry.unregister name, catalog := s.catalog.unregister name }

/-- `registry.register(spec, handler)`, `catalog.register(definition)`. -/
def register (s : MountState H) (planned : PlannedTool H) : MountState H :=
  { s with
    registry := s.registry.register planned.tool
    catalog := s.catalog.register planned.definition }

end MountState

/-- Code on the stores that may raise; the state is kept. -/
abbrev MountM (H : Type) := ExceptT MountError (StateM (MountState H))

namespace MCPToolMount

variable {H : Type}

/-- `provider`. -/
def provider (mount : MCPToolMount H) : String := "mcp:" ++ mount.serverName

/-- The name under which a remote tool is mounted. -/
def joinedName (mount : MCPToolMount H) (remoteName : String) : String :=
  "mcp." ++ mount.serverName ++ "." ++ remoteName

/-- `_local_name`. -/
def localName (mount : MCPToolMount H) (remoteName : String) : Except MountError String := do
  validateMCPName remoteName "tool name"
  let local_name := mount.joinedName remoteName
  ensure (local_name.length ≤ 128)
    (.valueError ("namespaced MCP tool exceeds 128 characters: " ++ local_name))
  return local_name

/-- The spec that `_plan_tool` builds. -/
def plannedSpec (localName description : String) (schema : Dict) (grant : MCPToolGrant) :
    FullToolSpec where
  name := localName
  description := description
  inputSchema := schema
  sideEffectLevel := grant.sideEffectLevel
  approvalRequired := grant.approvalRequired
  outputOffloadPolicy := grant.outputOffloadPolicy
  isReadOnly := grant.isReadOnly
  isDestructive := grant.isDestructive
  isConcurrencySafe := grant.isConcurrencySafe

/-- The tags that `_plan_tool` gives. -/
def plannedTags (mount : MCPToolMount H) (grant : MCPToolGrant) : List String :=
  ["mcp", "server:" ++ mount.serverName, grant.sideEffectLevel] ++
    (if grant.isReadOnly then ["read_only"] else []) ++
    (if grant.isDestructive then ["destructive"] else [])

/-- What `_plan_tool` returns once the schema is accepted. -/
def plannedTool (mount : MCPToolMount H) (localName remoteName description : String) (schema : Dict)
    (grant : MCPToolGrant) : PlannedTool H where
  tool := {
    spec := plannedSpec localName description schema grant
    handler := mount.handler localName remoteName }
  definition := {
    name := localName
    kind := .mcp
    description := description
    tags := mount.plannedTags grant
    inputSchema := schema
    provider := mount.provider }
  same_name := rfl

/-- `_plan_tool`. -/
def planTool (mount : MCPToolMount H) (localName : String) (descriptor : MCPToolDescriptor)
    (grant : MCPToolGrant) : Except MountError (PlannedTool H) := do
  let schema ← validatedInputSchema descriptor
  let description := cleanDescription descriptor.description descriptor.name.1
  return mount.plannedTool localName descriptor.name.1 description schema grant

/-- The body of the planning loop, for a tool that is granted. -/
def planGranted (mount : MCPToolMount H) (s : MountState H) (descriptor : MCPToolDescriptor)
    (grant : MCPToolGrant) : Except MountError (PlannedTool H) := do
  let local_name ← mount.localName descriptor.name.1
  ensure (¬ (s.registry.has local_name = true ∧ local_name ∉ s.mountedNames))
    (.valueError ("MCP tool name collision: " ++ local_name))
  ensure (¬ (s.catalog.has local_name = true ∧ local_name ∉ s.mountedNames))
    (.valueError ("MCP capability name collision: " ++ local_name))
  mount.planTool local_name descriptor grant

/-- The planning loop: the tools that are planned, and the remote names that are not granted. -/
def planTools (mount : MCPToolMount H) (s : MountState H) :
    List MCPToolDescriptor → Except MountError (List (PlannedTool H) × List String)
  | [] => .ok ([], [])
  | descriptor :: descriptors =>
      match mount.grants.lookup descriptor.name.1 with
      | none => do
          let (planned, excluded) ← mount.planTools s descriptors
          return (planned, descriptor.name.1 :: excluded)
      | some grant => do
          let first ← mount.planGranted s descriptor grant.2
          let (planned, excluded) ← mount.planTools s descriptors
          return (first :: planned, excluded)

/-- The names that one list has and another lacks, in order. -/
def namesWithout (names others : List String) : List String :=
  (names.filter (· ∉ others)).insertionSort (· ≤ ·)

/-- The descriptors in the order of their names. -/
def sortedDescriptors (descriptors : List MCPToolDescriptor) : List MCPToolDescriptor :=
  descriptors.insertionSort (fun a b => a.name.1 ≤ b.name.1)

/-- The remote names of the descriptors. -/
def remoteNames (descriptors : List MCPToolDescriptor) : List String := descriptors.map (·.name.1)

/-- A result of code that neither reads nor writes the stores. -/
def lifted {α : Type} (result : Except MountError α) : MountM H α := ExceptT.mk (pure result)

/-- `refresh`; `listed` is what `snapshot_tools` gives. -/
def refresh (mount : MCPToolMount H) (listed : Except MountError (List MCPToolDescriptor)) :
    MountM H MCPMountSnapshot := do
  let snapshot ← lifted listed
  let descriptors := sortedDescriptors snapshot
  let remote_names := remoteNames descriptors
  lifted (ensure remote_names.Nodup
    (.valueError ("duplicate MCP tool names from " ++ mount.serverName)))
  let s ← get
  let (planned, excluded) ← lifted (mount.planTools s descriptors)
  let next_names := planned.map (·.tool.name)
  modify (fun s => (s.mountedNames.insertionSort (· ≤ ·)).foldl MountState.unregister s)
  modify (fun s => planned.foldl MountState.register s)
  modify (fun s => { s with mountedNames := next_names })
  return {
    serverName := mount.serverName
    mountedNames := next_names.insertionSort (· ≤ ·)
    excludedRemoteNames := excluded.insertionSort (· ≤ ·)
    missingGrantNames := namesWithout (mount.grants.rows.map Prod.fst) remote_names
    removedNames := namesWithout s.mountedNames next_names }

end MCPToolMount

/-! ### Mounts over the same stores -/

/-- The stores, and what each of the mounts has mounted. -/
structure MountWorld (ι H : Type) where
  registry : ToolRegistry H
  catalog : CapabilityCatalog
  mounted : ι → List String

/-- A call of `refresh` of one of the mounts, with what its server lists. -/
structure RefreshCall (ι : Type) where
  mount : ι
  listed : Except MountError (List MCPToolDescriptor)

namespace MountWorld

variable {ι H : Type}

/-- The stores before any mount; what they hold is native. -/
def start (registry : ToolRegistry H) (catalog : CapabilityCatalog) : MountWorld ι H :=
  ⟨registry, catalog, fun _ => []⟩

/-- What one of the mounts works on. -/
def view (w : MountWorld ι H) (i : ι) : MountState H := ⟨w.registry, w.catalog, w.mounted i⟩

variable [DecidableEq ι]

/-- The world with what one of the mounts leaves. -/
def put (w : MountWorld ι H) (i : ι) (s : MountState H) : MountWorld ι H :=
  ⟨s.registry, s.catalog, Function.update w.mounted i s.mountedNames⟩

theorem put_view (w : MountWorld ι H) (i : ι) : w.put i (w.view i) = w := by
  simp [put, view]

variable (mounts : ι → MCPToolMount H)

/-- What a call returns or raises, and the state it leaves. -/
def outcome (call : RefreshCall ι) (w : MountWorld ι H) :
    Except MountError MCPMountSnapshot × MountState H :=
  ((mounts call.mount).refresh call.listed).run.run (w.view call.mount)

/-- The world after a call. -/
def step (call : RefreshCall ι) (w : MountWorld ι H) : MountWorld ι H :=
  w.put call.mount (outcome mounts call w).2

end MountWorld

/-! ### Planning -/

namespace MCPToolMount

variable {H : Type} {mount : MCPToolMount H}

theorem joinedName_inj {a b : String} : mount.joinedName a = mount.joinedName b ↔ a = b := by
  constructor
  · intro h
    have hchars := congrArg String.toList h
    simp only [joinedName, String.toList_append] at hchars
    exact String.toList_inj.mp (List.append_cancel_left hchars)
  · intro h
    rw [h]

theorem localName_eq {remoteName localName : String} (h : mount.localName remoteName = .ok localName) :
    localName = mount.joinedName remoteName := by
  obtain ⟨-, -, h⟩ := bind_ok_iff.mp h
  obtain ⟨-, -, h⟩ := bind_ok_iff.mp h
  exact (Except.ok.inj h).symm

/-- The tool that a granted descriptor becomes. -/
def mountedTool (mount : MCPToolMount H) (descriptor : MCPToolDescriptor) (grant : MCPToolGrant) :
    PlannedTool H :=
  mount.plannedTool (mount.joinedName descriptor.name.1) descriptor.name.1
    (cleanDescription descriptor.description descriptor.name.1) descriptor.inputSchema grant

@[simp] theorem mountedTool_name (mount : MCPToolMount H) (descriptor : MCPToolDescriptor)
    (grant : MCPToolGrant) :
    (mount.mountedTool descriptor grant).tool.name = mount.joinedName descriptor.name.1 := rfl

/-- The tools among these that are granted. -/
def grantedTools (mount : MCPToolMount H) (descriptors : List MCPToolDescriptor) : List (PlannedTool H) :=
  descriptors.filterMap (fun descriptor =>
    (mount.grants.lookup descriptor.name.1).map (fun entry => mount.mountedTool descriptor entry.2))

theorem mem_grantedTools {descriptors : List MCPToolDescriptor} {planned : PlannedTool H} :
    planned ∈ mount.grantedTools descriptors ↔ ∃ descriptor ∈ descriptors, ∃ grant,
      mount.grants.lookup descriptor.name.1 = some (descriptor.name.1, grant) ∧
        planned = mount.mountedTool descriptor grant := by
  rw [grantedTools, List.mem_filterMap]
  constructor
  · rintro ⟨descriptor, hmem, h⟩
    obtain ⟨entry, hentry, rfl⟩ := Option.map_eq_some_iff.mp h
    refine ⟨descriptor, hmem, entry.2, ?_, rfl⟩
    rw [hentry, ← Table.key_of_lookup hentry]
  · rintro ⟨descriptor, hmem, grant, hgrant, rfl⟩
    exact ⟨descriptor, hmem, by rw [hgrant]; rfl⟩

/-- Tools with different remote names have different local names. -/
theorem nodup_grantedTools {descriptors : List MCPToolDescriptor} (h : (remoteNames descriptors).Nodup) :
    ((mount.grantedTools descriptors).map (·.tool.name)).Nodup := by
  induction descriptors with
  | nil => exact List.nodup_nil
  | cons descriptor descriptors ih =>
      rw [remoteNames, List.map_cons, List.nodup_cons] at h
      have hrest := ih h.2
      rw [grantedTools, List.filterMap_cons]
      split
      next => exact hrest
      next planned hplanned =>
        obtain ⟨entry, -, rfl⟩ := Option.map_eq_some_iff.mp hplanned
        rw [List.map_cons, List.nodup_cons]
        refine ⟨?_, hrest⟩
        intro hmem
        obtain ⟨other, hother, hname⟩ := List.mem_map.mp hmem
        obtain ⟨d, hd, grant, -, rfl⟩ := mem_grantedTools.mp hother
        have hremote : d.name.1 = descriptor.name.1 := joinedName_inj.mp hname
        exact h.1 (hremote ▸ List.mem_map_of_mem (f := (·.name.1)) hd)

/-- The name is in neither store, or the mount's own. -/
def Free (s : MountState H) (name : String) : Prop :=
  (s.registry.lookup name = none ∨ name ∈ s.mountedNames) ∧
    (s.catalog.lookup name = none ∨ name ∈ s.mountedNames)

theorem planGranted_ok {s : MountState H} {descriptor : MCPToolDescriptor} {grant : MCPToolGrant}
    {planned : PlannedTool H} (h : mount.planGranted s descriptor grant = .ok planned) :
    planned = mount.mountedTool descriptor grant ∧ Free s planned.tool.name := by
  obtain ⟨local_name, hlocal, h⟩ := bind_ok_iff.mp h
  obtain rfl := localName_eq hlocal
  obtain ⟨_, hregistry, h⟩ := bind_ok_iff.mp h
  obtain ⟨_, hcatalog, h⟩ := bind_ok_iff.mp h
  obtain ⟨schema, hschema, h⟩ := bind_ok_iff.mp h
  obtain rfl : schema = descriptor.inputSchema := by
    unfold validatedInputSchema at hschema
    split_ifs at hschema
    exact (Except.ok.inj hschema).symm
  obtain rfl := Except.ok.inj h
  refine ⟨rfl, ?_⟩
  have htool := Decidable.not_and_iff_not_or_not.mp (ensure_ok_iff.mp hregistry)
  have hcapability := Decidable.not_and_iff_not_or_not.mp (ensure_ok_iff.mp hcatalog)
  change Free s (mount.joinedName descriptor.name.1)
  constructor
  · simpa [ToolRegistry.has] using htool
  · simpa [CapabilityCatalog.has] using hcapability

/-- **Planning** lets through the granted tools, all of them with free names. -/
theorem planTools_ok {s : MountState H} {descriptors : List MCPToolDescriptor}
    {planned : List (PlannedTool H)} {excluded : List String}
    (h : mount.planTools s descriptors = .ok (planned, excluded)) :
    planned = mount.grantedTools descriptors ∧
      (∀ name, name ∈ excluded ↔
        ∃ descriptor ∈ descriptors, descriptor.name.1 = name ∧ mount.grants.lookup name = none) ∧
      ∀ p ∈ planned, Free s p.tool.name := by
  induction descriptors generalizing planned excluded with
  | nil =>
      obtain ⟨rfl, rfl⟩ := Prod.mk.inj (Except.ok.inj h)
      simp [grantedTools]
  | cons descriptor descriptors ih =>
      rw [planTools] at h
      split at h
      next hgrant =>
        obtain ⟨⟨rest, names⟩, hrest, h⟩ := bind_ok_iff.mp h
        obtain ⟨rfl, rfl⟩ := Prod.mk.inj (Except.ok.inj h)
        obtain ⟨rfl, hnames, hfree⟩ := ih hrest
        refine ⟨?_, ?_, hfree⟩
        · simp [grantedTools, hgrant]
        · intro name
          rw [List.mem_cons, hnames name, List.exists_mem_cons_iff]
          constructor
          · rintro (rfl | hmem)
            · exact .inl ⟨rfl, hgrant⟩
            · exact .inr hmem
          · rintro (⟨rfl, -⟩ | hmem)
            · exact .inl rfl
            · exact .inr hmem
      next entry hgrant =>
        obtain ⟨first, hfirst, h⟩ := bind_ok_iff.mp h
        obtain ⟨⟨rest, names⟩, hrest, h⟩ := bind_ok_iff.mp h
        obtain ⟨rfl, rfl⟩ := Prod.mk.inj (Except.ok.inj h)
        obtain ⟨rfl, hnames, hfree⟩ := ih hrest
        obtain ⟨rfl, hfirstFree⟩ := planGranted_ok hfirst
        refine ⟨?_, ?_, ?_⟩
        · simp [grantedTools, hgrant]
        · intro name
          rw [hnames name, List.exists_mem_cons_iff]
          constructor
          · exact .inr
          · rintro (⟨rfl, hnone⟩ | hmem)
            · rw [hgrant] at hnone
              cases hnone
            · exact hmem
        · intro p hp
          rcases List.mem_cons.mp hp with rfl | hp
          · exact hfirstFree
          · exact hfree p hp

/-! ### What a refresh does -/

/-- The stores with the planned tools in the place of those that were mounted. -/
def replaced (s : MountState H) (planned : List (PlannedTool H)) : MountState H where
  registry := (s.registry.deleteAll (s.mountedNames.insertionSort (· ≤ ·))).upsertAll (planned.map (·.tool))
  catalog :=
    (s.catalog.deleteAll (s.mountedNames.insertionSort (· ≤ ·))).upsertAll (planned.map (·.definition))
  mountedNames := planned.map (·.tool.name)

theorem foldl_unregister (s : MountState H) (names : List String) :
    names.foldl MountState.unregister s =
      { s with registry := s.registry.deleteAll names, catalog := s.catalog.deleteAll names } := by
  induction names generalizing s with
  | nil => rfl
  | cons name names ih =>
      rw [List.foldl_cons, ih]
      rfl

theorem foldl_register (s : MountState H) (planned : List (PlannedTool H)) :
    planned.foldl MountState.register s =
      { s with
        registry := s.registry.upsertAll (planned.map (·.tool))
        catalog := s.catalog.upsertAll (planned.map (·.definition)) } := by
  induction planned generalizing s with
  | nil => rfl
  | cons p planned ih =>
      rw [List.foldl_cons, ih]
      rfl

/-- The report of a refresh that has mounted the granted ones of these tools. -/
def report (mount : MCPToolMount H) (s : MountState H) (descriptors : List MCPToolDescriptor)
    (excluded : List String) : MCPMountSnapshot where
  serverName := mount.serverName
  mountedNames := ((mount.grantedTools descriptors).map (·.tool.name)).insertionSort (· ≤ ·)
  excludedRemoteNames := excluded.insertionSort (· ≤ ·)
  missingGrantNames := namesWithout (mount.grants.rows.map Prod.fst) (remoteNames descriptors)
  removedNames := namesWithout s.mountedNames ((mount.grantedTools descriptors).map (·.tool.name))

theorem lifted_ok_bind {α β : Type} (a : α) (f : α → MountM H β) : (lifted (.ok a) >>= f) = f a := rfl

theorem lifted_error_bind {α β : Type} (e : MountError) (f : α → MountM H β) :
    (lifted (.error e) >>= f) = lifted (.error e) := rfl

theorem run_get_bind {α : Type} (s : MountState H) (f : MountState H → MountM H α) :
    ((get >>= f).run.run s) = (f s).run.run s := rfl

/-- A refresh raises and leaves everything, or replaces what was mounted by what is granted. -/
theorem refresh_cases (mount : MCPToolMount H) (s : MountState H)
    (listed : Except MountError (List MCPToolDescriptor)) :
    (∃ e, (mount.refresh listed).run.run s = (.error e, s)) ∨
      ∃ descriptors excluded, listed = .ok descriptors ∧
        (remoteNames (sortedDescriptors descriptors)).Nodup ∧
        mount.planTools s (sortedDescriptors descriptors) =
          .ok (mount.grantedTools (sortedDescriptors descriptors), excluded) ∧
        (mount.refresh listed).run.run s =
          (.ok (mount.report s (sortedDescriptors descriptors) excluded),
            replaced s (mount.grantedTools (sortedDescriptors descriptors))) := by
  cases listed with
  | error e => exact .inl ⟨e, rfl⟩
  | ok descriptors =>
      by_cases hnodup : (remoteNames (sortedDescriptors descriptors)).Nodup
      · cases hplan : mount.planTools s (sortedDescriptors descriptors) with
        | error e =>
            refine .inl ⟨e, ?_⟩
            simp only [refresh, lifted_ok_bind, ensure, if_pos hnodup]
            rw [run_get_bind]
            simp only [hplan, lifted_error_bind]
            rfl
        | ok result =>
            obtain ⟨planned, excluded⟩ := result
            obtain ⟨rfl, -, -⟩ := planTools_ok hplan
            refine .inr ⟨descriptors, excluded, rfl, hnodup, hplan, ?_⟩
            simp only [refresh, lifted_ok_bind, ensure, if_pos hnodup]
            rw [run_get_bind]
            simp only [hplan, lifted_ok_bind, foldl_unregister, foldl_register]
            rfl
      · refine .inl ⟨.valueError ("duplicate MCP tool names from " ++ mount.serverName), ?_⟩
        simp only [refresh, lifted_ok_bind, ensure, if_neg hnodup, lifted_error_bind]
        rfl

end MCPToolMount

/-! ### The layers of the stores -/

namespace MountWorld

variable {ι H : Type} [DecidableEq ι] {mounts : ι → MCPToolMount H}

/-- The stores are `native` with the tools of these listings laid over them. -/
structure Shows (mounts : ι → MCPToolMount H) (native w : MountWorld ι H)
    (listings : ι → List MCPToolDescriptor) : Prop where
  names : ∀ i, w.mounted i = ((mounts i).grantedTools (listings i)).map (·.tool.name)
  registry : Layered native.registry w.registry
    (fun i => ((mounts i).grantedTools (listings i)).map (·.tool))
  catalog : Layered native.catalog w.catalog
    (fun i => ((mounts i).grantedTools (listings i)).map (·.definition))

/-- What was listed last, after a call. -/
def relisted (call : RefreshCall ι) (w : MountWorld ι H) (listings : ι → List MCPToolDescriptor)
    (mounts : ι → MCPToolMount H) : ι → List MCPToolDescriptor :=
  match outcome mounts call w, call.listed with
  | (.ok _, _), .ok descriptors =>
      Function.update listings call.mount (MCPToolMount.sortedDescriptors descriptors)
  | _, _ => listings

omit [DecidableEq ι] in
theorem shows_start (registry : ToolRegistry H) (catalog : CapabilityCatalog) :
    Shows mounts (start registry catalog) (start registry catalog) (fun _ => []) where
  names _ := rfl
  registry := Layered.base_only registry
  catalog := Layered.base_only catalog

theorem map_tool_name (planned : List (PlannedTool H)) :
    (planned.map (·.tool)).map RegisteredTool.name = planned.map (·.tool.name) := by
  rw [List.map_map]
  rfl

theorem map_definition_key (planned : List (PlannedTool H)) :
    (planned.map (·.definition)).map CapabilityDefinition.key = planned.map (·.tool.name) := by
  rw [List.map_map]
  exact List.map_congr_left (fun p _ => p.same_name)

/-- The stores after a replacement by granted tools with free names. -/
theorem Shows.put {native w : MountWorld ι H} {listings : ι → List MCPToolDescriptor}
    (h : Shows mounts native w listings) {i : ι} {descriptors : List MCPToolDescriptor}
    (hnodup : (MCPToolMount.remoteNames descriptors).Nodup)
    (hfree : ∀ p ∈ (mounts i).grantedTools descriptors, MCPToolMount.Free (w.view i) p.tool.name) :
    Shows mounts native
      (w.put i (MCPToolMount.replaced (w.view i) ((mounts i).grantedTools descriptors)))
      (Function.update listings i descriptors) := by
  have hnames := (mounts i).nodup_grantedTools hnodup
  constructor
  case names =>
    intro j
    by_cases hj : j = i
    · subst hj
      simp [MountWorld.put, MCPToolMount.replaced]
    · simp [MountWorld.put, hj, h.names j]
  case registry =>
    have hold : ∀ k, k ∈ (w.mounted i).insertionSort (· ≤ ·) ↔
        ∃ tool ∈ ((mounts i).grantedTools (listings i)).map (·.tool), tool.name = k := by
      intro k
      rw [List.mem_insertionSort, h.names i, ← map_tool_name, List.mem_map]
    have hkeys : ∀ tool ∈ ((mounts i).grantedTools descriptors).map (·.tool),
        w.registry.lookup tool.name = none ∨ tool.name ∈ (w.mounted i).insertionSort (· ≤ ·) := by
      intro tool htool
      obtain ⟨p, hp, rfl⟩ := List.mem_map.mp htool
      rw [List.mem_insertionSort]
      exact (hfree p hp).1
    have hlayers := h.registry.replace hold (by rw [map_tool_name]; exact hnames) hkeys
    have hrows := Function.apply_update
      (fun j descriptors => ((mounts j).grantedTools descriptors).map (·.tool)) listings i descriptors
    exact (funext hrows) ▸ hlayers
  case catalog =>
    have hold : ∀ k, k ∈ (w.mounted i).insertionSort (· ≤ ·) ↔
        ∃ definition ∈ ((mounts i).grantedTools (listings i)).map (·.definition),
          definition.key = k := by
      intro k
      rw [List.mem_insertionSort, h.names i, ← map_definition_key, List.mem_map]
    have hkeys : ∀ definition ∈ ((mounts i).grantedTools descriptors).map (·.definition),
        w.catalog.lookup definition.key = none ∨
          definition.key ∈ (w.mounted i).insertionSort (· ≤ ·) := by
      intro definition hdefinition
      obtain ⟨p, hp, rfl⟩ := List.mem_map.mp hdefinition
      rw [List.mem_insertionSort, CapabilityDefinition.key, p.same_name]
      exact (hfree p hp).2
    have hlayers := h.catalog.replace hold (by rw [map_definition_key]; exact hnames) hkeys
    have hrows := Function.apply_update
      (fun j descriptors => ((mounts j).grantedTools descriptors).map (·.definition)) listings i
      descriptors
    exact (funext hrows) ▸ hlayers

/-- **A call keeps the layers**, with the tools that were listed last. -/
theorem Shows.step {native w : MountWorld ι H} {listings : ι → List MCPToolDescriptor}
    (h : Shows mounts native w listings) (call : RefreshCall ι) :
    Shows mounts native (step mounts call w) (relisted call w listings mounts) := by
  rcases (mounts call.mount).refresh_cases (w.view call.mount) call.listed with
    ⟨e, hrun⟩ | ⟨descriptors, excluded, hlisted, hnodup, hplan, hrun⟩
  · have hstep : MountWorld.step mounts call w = w := by
      rw [MountWorld.step, outcome, hrun]
      exact put_view w call.mount
    have hlistings : relisted call w listings mounts = listings := by
      rw [relisted, outcome, hrun]
    rw [hstep, hlistings]
    exact h
  · have hlistings : relisted call w listings mounts =
        Function.update listings call.mount (MCPToolMount.sortedDescriptors descriptors) := by
      rw [relisted, outcome, hrun, hlisted]
    rw [hlistings, MountWorld.step, outcome, hrun]
    exact h.put hnodup (MCPToolMount.planTools_ok hplan).2.2

/-! ### Every run -/

/-- The tool and the capability that a mount makes of a remote tool that it was granted. -/
structure Carries (mount : MCPToolMount H) (descriptor : MCPToolDescriptor) (grant : MCPToolGrant)
    (tool : RegisteredTool H) (definition : CapabilityDefinition) : Prop where
  granted : mount.grants.lookup descriptor.name.1 = some (descriptor.name.1, grant)
  name : tool.name = mount.joinedName descriptor.name.1 ∧ definition.name = tool.name
  sideEffectLevel : tool.spec.sideEffectLevel = grant.sideEffectLevel
  approvalRequired : tool.spec.approvalRequired = grant.approvalRequired
  outputOffloadPolicy : tool.spec.outputOffloadPolicy = grant.outputOffloadPolicy
  isReadOnly : tool.spec.isReadOnly = grant.isReadOnly
  isDestructive : tool.spec.isDestructive = grant.isDestructive
  isConcurrencySafe : tool.spec.isConcurrencySafe = grant.isConcurrencySafe
  schema : tool.spec.inputSchema = descriptor.inputSchema ∧ definition.inputSchema = descriptor.inputSchema
  description : definition.description = tool.spec.description
  handler : tool.handler = mount.handler tool.name descriptor.name.1
  kind : definition.kind = .mcp
  provider : definition.provider = mount.provider
  tags : definition.tags = mount.plannedTags grant

/-- What the mounts have mounted: nothing twice, nothing native, and all of it granted and in both
stores; under every other name the stores are as they were. -/
structure InStep (mounts : ι → MCPToolMount H) (native w : MountWorld ι H) : Prop where
  disjoint : ∀ i j, i ≠ j → (w.mounted i).Disjoint (w.mounted j)
  granted : ∀ i, ∀ name ∈ w.mounted i, ∃ descriptor grant tool definition,
    Carries (mounts i) descriptor grant tool definition ∧ tool.name = name ∧
      w.registry.lookup name = some tool ∧ w.catalog.lookup name = some definition
  notNative : ∀ i, ∀ name ∈ w.mounted i,
    native.registry.lookup name = none ∧ native.catalog.lookup name = none
  others : ∀ name, (∀ i, name ∉ w.mounted i) →
    w.registry.lookup name = native.registry.lookup name ∧
      w.catalog.lookup name = native.catalog.lookup name

/-- What one call does: it raises and changes nothing, or the mount now has exactly the granted ones of
the tools that its server lists, and what is not its own is as it was. -/
def Replaces (mounts : ι → MCPToolMount H) (w : MountWorld ι H) (call : RefreshCall ι) : Prop :=
  let w' := MountWorld.step mounts call w
  match (outcome mounts call w).1 with
  | .error _ => w' = w
  | .ok _ => ∃ descriptors, call.listed = .ok descriptors ∧
      (∀ name, name ∈ w'.mounted call.mount ↔ ∃ descriptor ∈ descriptors,
        ((mounts call.mount).grants.lookup descriptor.name.1).isSome ∧
          name = (mounts call.mount).joinedName descriptor.name.1) ∧
      (∀ descriptor ∈ descriptors, ∀ grant,
        (mounts call.mount).grants.lookup descriptor.name.1 = some (descriptor.name.1, grant) →
          ∃ tool definition, Carries (mounts call.mount) descriptor grant tool definition ∧
            w'.registry.lookup tool.name = some tool ∧ w'.catalog.lookup tool.name = some definition) ∧
      (∀ name ∈ w.mounted call.mount, name ∉ w'.mounted call.mount →
        w'.registry.lookup name = none ∧ w'.catalog.lookup name = none) ∧
      (∀ j, j ≠ call.mount → w'.mounted j = w.mounted j) ∧
      ∀ name, name ∉ w.mounted call.mount →
        (∀ tool, w.registry.lookup name = some tool → w'.registry.lookup name = some tool) ∧
          ∀ definition, w.catalog.lookup name = some definition →
            w'.catalog.lookup name = some definition

omit [DecidableEq ι] in
theorem Shows.mem_mounted_iff {native w : MountWorld ι H} {listings : ι → List MCPToolDescriptor}
    (h : Shows mounts native w listings) {i : ι} {name : String} :
    name ∈ w.mounted i ↔ ∃ p ∈ (mounts i).grantedTools (listings i), p.tool.name = name := by
  rw [h.names i, List.mem_map]

omit [DecidableEq ι] in
/-- A mounted tool is in both stores, and native to none. -/
theorem Shows.lookup_of_granted {native w : MountWorld ι H} {listings : ι → List MCPToolDescriptor}
    (h : Shows mounts native w listings) {i : ι} {p : PlannedTool H}
    (hp : p ∈ (mounts i).grantedTools (listings i)) :
    (w.registry.lookup p.tool.name = some p.tool ∧ w.catalog.lookup p.tool.name = some p.definition) ∧
      native.registry.lookup p.tool.name = none ∧ native.catalog.lookup p.tool.name = none := by
  have htool := List.mem_map_of_mem (f := (·.tool)) hp
  have hdefinition := List.mem_map_of_mem (f := (·.definition)) hp
  have hkey : p.definition.key = p.tool.name := p.same_name
  refine ⟨⟨h.registry.shows i p.tool htool, ?_⟩, h.registry.fresh i p.tool htool, ?_⟩
  · rw [← hkey]
    exact h.catalog.shows i p.definition hdefinition
  · rw [← hkey]
    exact h.catalog.fresh i p.definition hdefinition

omit [DecidableEq ι] in
/-- Under a name that no mount has the stores are native. -/
theorem Shows.lookup_of_not_mounted {native w : MountWorld ι H}
    {listings : ι → List MCPToolDescriptor} (h : Shows mounts native w listings) {name : String}
    (hname : ∀ i, name ∉ w.mounted i) :
    w.registry.lookup name = native.registry.lookup name ∧
      w.catalog.lookup name = native.catalog.lookup name := by
  constructor
  · refine h.registry.below name ?_
    intro i tool htool heq
    obtain ⟨p, hp, rfl⟩ := List.mem_map.mp htool
    exact hname i (h.mem_mounted_iff.mpr ⟨p, hp, heq⟩)
  · refine h.catalog.below name ?_
    intro i definition hdefinition heq
    obtain ⟨p, hp, rfl⟩ := List.mem_map.mp hdefinition
    exact hname i (h.mem_mounted_iff.mpr ⟨p, hp, p.same_name.symm.trans heq⟩)

omit [DecidableEq ι] in
theorem Shows.disjoint {native w : MountWorld ι H} {listings : ι → List MCPToolDescriptor}
    (h : Shows mounts native w listings) {i j : ι} (hij : i ≠ j) :
    (w.mounted i).Disjoint (w.mounted j) := by
  intro name hi hj
  obtain ⟨p, hp, rfl⟩ := h.mem_mounted_iff.mp hi
  obtain ⟨q, hq, heq⟩ := h.mem_mounted_iff.mp hj
  exact h.registry.disjoint i j hij p.tool (List.mem_map_of_mem hp) q.tool (List.mem_map_of_mem hq)
    heq.symm

theorem carries_mountedTool {mount : MCPToolMount H} {descriptor : MCPToolDescriptor}
    {grant : MCPToolGrant}
    (h : mount.grants.lookup descriptor.name.1 = some (descriptor.name.1, grant)) :
    Carries mount descriptor grant (mount.mountedTool descriptor grant).tool
      (mount.mountedTool descriptor grant).definition where
  granted := h
  name := ⟨rfl, rfl⟩
  sideEffectLevel := rfl
  approvalRequired := rfl
  outputOffloadPolicy := rfl
  isReadOnly := rfl
  isDestructive := rfl
  isConcurrencySafe := rfl
  schema := ⟨rfl, rfl⟩
  description := rfl
  handler := rfl
  kind := rfl
  provider := rfl
  tags := rfl

omit [DecidableEq ι] in
theorem Shows.inStep {native w : MountWorld ι H} {listings : ι → List MCPToolDescriptor}
    (h : Shows mounts native w listings) : InStep mounts native w where
  disjoint _ _ hij := h.disjoint hij
  granted i name hname := by
    obtain ⟨p, hp, rfl⟩ := h.mem_mounted_iff.mp hname
    obtain ⟨hregistry, hcatalog⟩ := (h.lookup_of_granted hp).1
    obtain ⟨descriptor, -, grant, hgrant, rfl⟩ := MCPToolMount.mem_grantedTools.mp hp
    exact ⟨descriptor, grant, _, _, carries_mountedTool hgrant, rfl, hregistry, hcatalog⟩
  notNative i name hname := by
    obtain ⟨p, hp, rfl⟩ := h.mem_mounted_iff.mp hname
    exact (h.lookup_of_granted hp).2
  others _ hname := h.lookup_of_not_mounted hname

/-- What the stores hold under a name that the mount does not have stays there. -/
theorem lookup_replaced {s : MountState H} {planned : List (PlannedTool H)} {name : String}
    (hfree : ∀ p ∈ planned, MCPToolMount.Free s p.tool.name) (hname : name ∉ s.mountedNames) :
    (∀ tool, s.registry.lookup name = some tool →
      (MCPToolMount.replaced s planned).registry.lookup name = some tool) ∧
    ∀ definition, s.catalog.lookup name = some definition →
      (MCPToolMount.replaced s planned).catalog.lookup name = some definition := by
  have hsorted : name ∉ s.mountedNames.insertionSort (· ≤ ·) := by
    rw [List.mem_insertionSort]
    exact hname
  constructor
  · intro tool htool
    have hnew : ∀ t ∈ planned.map (·.tool), t.name ≠ name := by
      intro t ht heq
      obtain ⟨p, hp, rfl⟩ := List.mem_map.mp ht
      rcases (hfree p hp).1 with hnone | hmem
      · rw [heq, htool] at hnone
        cases hnone
      · exact hname (heq ▸ hmem)
    rw [MCPToolMount.replaced, Table.lookup_upsertAll_of_not_mem _ hnew, Table.lookup_deleteAll,
      if_neg hsorted]
    exact htool
  · intro definition hdefinition
    have hnew : ∀ d ∈ planned.map (·.definition), d.key ≠ name := by
      intro d hd heq
      obtain ⟨p, hp, rfl⟩ := List.mem_map.mp hd
      have heq' : p.tool.name = name := p.same_name.symm.trans heq
      rcases (hfree p hp).2 with hnone | hmem
      · rw [heq', hdefinition] at hnone
        cases hnone
      · exact hname (heq' ▸ hmem)
    rw [MCPToolMount.replaced, Table.lookup_upsertAll_of_not_mem _ hnew, Table.lookup_deleteAll,
      if_neg hsorted]
    exact hdefinition

/-- **What one call does**, in stores that show what is mounted. -/
theorem Shows.replaces {native w : MountWorld ι H} {listings : ι → List MCPToolDescriptor}
    (h : Shows mounts native w listings) (call : RefreshCall ι) : Replaces mounts w call := by
  have hnext := h.step call
  unfold Replaces
  rcases (mounts call.mount).refresh_cases (w.view call.mount) call.listed with
    ⟨e, hrun⟩ | ⟨descriptors, excluded, hlisted, hnodup, hplan, hrun⟩
  · have houtcome : outcome mounts call w = (.error e, w.view call.mount) := hrun
    rw [houtcome]
    change MountWorld.step mounts call w = w
    rw [MountWorld.step, houtcome]
    exact put_view w call.mount
  · have houtcome : outcome mounts call w = _ := hrun
    have hstep : MountWorld.step mounts call w = w.put call.mount
        (MCPToolMount.replaced (w.view call.mount) ((mounts call.mount).grantedTools
          (MCPToolMount.sortedDescriptors descriptors))) := by
      rw [MountWorld.step, houtcome]
    have hlistings : relisted call w listings mounts =
        Function.update listings call.mount (MCPToolMount.sortedDescriptors descriptors) := by
      rw [relisted, houtcome, hlisted]
    have hsorted : ∀ d, d ∈ MCPToolMount.sortedDescriptors descriptors ↔ d ∈ descriptors := by
      intro d
      exact List.mem_insertionSort _
    rw [hlistings] at hnext
    have hown : Function.update listings call.mount (MCPToolMount.sortedDescriptors descriptors) call.mount =
        MCPToolMount.sortedDescriptors descriptors := Function.update_self ..
    rw [houtcome]
    have hmounted : ∀ name, name ∈ (MountWorld.step mounts call w).mounted call.mount ↔
        ∃ p ∈ (mounts call.mount).grantedTools (MCPToolMount.sortedDescriptors descriptors),
          p.tool.name = name := by
      intro name
      rw [hnext.mem_mounted_iff, hown]
    have hothers : ∀ j, j ≠ call.mount → (MountWorld.step mounts call w).mounted j = w.mounted j := by
      intro j hj
      rw [hstep]
      exact Function.update_of_ne hj _ _
    refine ⟨descriptors, hlisted, ?_, ?_, ?_, hothers, ?_⟩
    · intro name
      rw [hmounted]
      constructor
      · rintro ⟨p, hp, rfl⟩
        obtain ⟨descriptor, hmem, grant, hgrant, rfl⟩ := MCPToolMount.mem_grantedTools.mp hp
        exact ⟨descriptor, (hsorted _).mp hmem, by rw [hgrant]; rfl, rfl⟩
      · rintro ⟨descriptor, hmem, hgranted, rfl⟩
        obtain ⟨entry, hentry⟩ := Option.isSome_iff_exists.mp hgranted
        have hkey := Table.key_of_lookup hentry
        refine ⟨_, MCPToolMount.mem_grantedTools.mpr
          ⟨descriptor, (hsorted _).mpr hmem, entry.2, ?_, rfl⟩, rfl⟩
        rw [hentry, ← hkey]
    · intro descriptor hmem grant hgrant
      have htool : (mounts call.mount).mountedTool descriptor grant ∈ (mounts call.mount).grantedTools
          (Function.update listings call.mount (MCPToolMount.sortedDescriptors descriptors) call.mount) := by
        rw [hown]
        exact MCPToolMount.mem_grantedTools.mpr ⟨descriptor, (hsorted _).mpr hmem, grant, hgrant, rfl⟩
      obtain ⟨hregistry, hcatalog⟩ := (hnext.lookup_of_granted htool).1
      exact ⟨_, _, carries_mountedTool hgrant, hregistry, hcatalog⟩
    · intro name hold hnew
      have hnobody : ∀ j, name ∉ (MountWorld.step mounts call w).mounted j := by
        intro j
        by_cases hj : j = call.mount
        · rw [hj]
          exact hnew
        · rw [hothers j hj]
          exact h.disjoint (Ne.symm hj) hold
      obtain ⟨hregistry, hcatalog⟩ := hnext.lookup_of_not_mounted hnobody
      obtain ⟨hnativeRegistry, hnativeCatalog⟩ := h.inStep.notNative call.mount name hold
      exact ⟨hregistry.trans hnativeRegistry, hcatalog.trans hnativeCatalog⟩
    · intro name hname
      rw [hstep]
      exact lookup_replaced (MCPToolMount.planTools_ok hplan).2.2 hname

/-- **Mounts keep the stores in step**: after every call the mounts have different names, none of them
native and each in both stores as it was granted; a call that raises changes nothing, and one that
returns replaces what its mount had, and nothing else. -/
theorem mounts_in_step (mounts : ι → MCPToolMount H) (registry : ToolRegistry H)
    (catalog : CapabilityCatalog) (calls : List (RefreshCall ι)) :
    EveryState (MountWorld.step mounts) (InStep mounts (start registry catalog))
        (start registry catalog) calls ∧
      EveryStep (MountWorld.step mounts) (Replaces mounts) (start registry catalog) calls := by
  have hrun : ∀ w listings, Shows mounts (start registry catalog) w listings →
      EveryState (MountWorld.step mounts) (InStep mounts (start registry catalog)) w calls ∧
        EveryStep (MountWorld.step mounts) (Replaces mounts) w calls := by
    induction calls with
    | nil => exact fun w listings h => ⟨h.inStep, trivial⟩
    | cons call calls ih =>
        intro w listings h
        obtain ⟨hstates, hsteps⟩ := ih _ _ (h.step call)
        exact ⟨⟨h.inStep, hstates⟩, h.replaces call, hsteps⟩
  exact hrun _ _ (shows_start registry catalog)

/-! ### What the stores depend on -/

/-- The last listing of each mount that a refresh has mounted, in the order of its names. -/
def lastListed (mounts : ι → MCPToolMount H) (w : MountWorld ι H)
    (listings : ι → List MCPToolDescriptor) : List (RefreshCall ι) → ι → List MCPToolDescriptor
  | [] => listings
  | call :: calls =>
      lastListed mounts (MountWorld.step mounts call w) (relisted call w listings mounts) calls

theorem Shows.run {native w : MountWorld ι H} {listings : ι → List MCPToolDescriptor}
    (h : Shows mounts native w listings) (calls : List (RefreshCall ι)) :
    Shows mounts native (runAll (MountWorld.step mounts) w calls) (lastListed mounts w listings calls) := by
  induction calls generalizing w listings with
  | nil => exact h
  | cons call calls ih => exact ih (h.step call)

/-- **The stores depend only on the last listings**: after two runs over the same native tools in which
the same listings were mounted last, whatever was refreshed, refused or removed before and in which order,
the mounts have the same names and both stores the same content. -/
theorem stores_of_lastListed (mounts : ι → MCPToolMount H) (registry : ToolRegistry H)
    (catalog : CapabilityCatalog) (calls calls' : List (RefreshCall ι))
    (hlast : lastListed mounts (start registry catalog) (fun _ => []) calls =
      lastListed mounts (start registry catalog) (fun _ => []) calls') :
    (runAll (MountWorld.step mounts) (start registry catalog) calls).mounted =
        (runAll (MountWorld.step mounts) (start registry catalog) calls').mounted ∧
      ∀ name,
        (runAll (MountWorld.step mounts) (start registry catalog) calls).registry.lookup name =
            (runAll (MountWorld.step mounts) (start registry catalog) calls').registry.lookup name ∧
          (runAll (MountWorld.step mounts) (start registry catalog) calls).catalog.lookup name =
            (runAll (MountWorld.step mounts) (start registry catalog) calls').catalog.lookup name := by
  have hstart : Shows mounts (start registry catalog) (start registry catalog) (fun _ => []) :=
    shows_start registry catalog
  have h := hstart.run calls
  have h' := hstart.run calls'
  rw [← hlast] at h'
  refine ⟨?_, ?_⟩
  · funext i
    rw [h.names i, h'.names i]
  · intro name
    exact ⟨h.registry.lookup_eq h'.registry name, h.catalog.lookup_eq h'.catalog name⟩

theorem crm_valid : validMCPName "crm" = true := by decide

theorem lookup_sized : 1 ≤ "lookup".length ∧ ∀ m ∈ some 128, "lookup".length ≤ m := by decide

/-- A mount that is granted one tool. -/
def crmMount : MCPToolMount Unit where
  serverName := "crm"
  grants := Table.empty.insertIgnore ("lookup", {})
  handler _ _ := ()
  valid_serverName := crm_valid

/-- A server that lists the tool, after one that lists nothing. -/
def emptyThenLookup : List (RefreshCall Unit) :=
  [⟨(), .ok []⟩, ⟨(), .ok [{ name := ⟨"lookup", lookup_sized⟩ }]⟩]

/-- The same tool, and then a call that the server refuses. -/
def lookupThenFailure : List (RefreshCall Unit) :=
  [⟨(), .ok [{ name := ⟨"lookup", lookup_sized⟩ }]⟩, ⟨(), .error (.client "closed")⟩]

theorem stores_of_lookup :
    lastListed (fun _ => crmMount) (start Table.empty Table.empty) (fun _ => []) emptyThenLookup =
        lastListed (fun _ => crmMount) (start Table.empty Table.empty) (fun _ => []) lookupThenFailure ∧
      (runAll (MountWorld.step (fun _ => crmMount)) (start Table.empty Table.empty) emptyThenLookup).mounted
        = (runAll (MountWorld.step (fun _ => crmMount)) (start Table.empty Table.empty)
            lookupThenFailure).mounted := by
  have hlast : lastListed (fun _ => crmMount) (start Table.empty Table.empty) (fun _ => [])
      emptyThenLookup = lastListed (fun _ => crmMount) (start Table.empty Table.empty) (fun _ => [])
        lookupThenFailure := by
    funext i
    cases i
    decide +kernel
  exact ⟨hlast, (stores_of_lastListed (fun _ => crmMount) Table.empty Table.empty emptyThenLookup
    lookupThenFailure hlast).1⟩

end MountWorld

end CrazyHarness
