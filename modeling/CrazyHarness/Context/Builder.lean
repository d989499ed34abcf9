import CrazyHarness.Context.Microcompact
import CrazyHarness.Core.Hashing
import CrazyHarness.Lib.Except
import CrazyHarness.Lib.Sorting
import CrazyHarness.Lib.Table

/-! # The context builder

`ContextBuilder.build_messages`: the active events at the end of the log become items, the items are compacted, and
a manifest accounts for every event.

* `sources_compactEvents`: the messages are those of the events that are kept, in their order.
* `windowed_iff`: when the window is bounded and the manifest accounts for every event.
* `losesNothing_iff`: the pass over the items and the builder, together. -/

namespace CrazyHarness

open Lib

/-! ### Manifests -/

/-- `ContextRepresentation`. -/
inductive ContextRepresentation where
  | inline
  | ref
  | summary
  | discard
deriving DecidableEq

/-- `ContextTransform`. -/
structure ContextTransform where
  ref : SizedString 1 none
  representation : ContextRepresentation
  reason : SizedString 1 none

namespace ContextTransform

/-- The transform of a reference, which must not be empty. -/
def checked (ref : String) (representation : ContextRepresentation) (reason : SizedString 1 none) :
    Except RuntimeError ContextTransform :=
  match SizedString.ofString 1 none ref with
  | some ref => .ok { ref, representation, reason }
  | none => .error (.valueError "String should have at least 1 character")

end ContextTransform

/-- The first error of `validate_ref_accounting`. -/
def refError (included excluded : List String) (transform : List ContextTransform) : Option String :=
  let overlap := (included.filter (· ∈ excluded)).dedup
  if overlap ≠ [] then
    some ("refs cannot be both included and excluded: " ++
      (Json.list ((overlap.insertionSort (· ≤ ·)).map .str)).pyRepr)
  else
    transform.findSome? (fun change =>
      let discarded := change.representation = .discard
      if change.ref.1 ∈ (if discarded then excluded else included) then none
      else some ("transform ref " ++ (Json.str change.ref.1).pyRepr ++ " must appear in " ++
        (if discarded then "excluded_refs" else "included_refs")))

/-- `ContextManifest`, whose references are accounted for. -/
structure AccountedManifest where
  includedRefs : List String
  excludedRefs : List String
  transform : List ContextTransform
  tokenEstimate : ℕ
  contractVersion : ℕ
  promptHash : HexDigest
  contractVersion_ge : 1 ≤ contractVersion
  ref_accounting : refError includedRefs excludedRefs transform = none

/-- A message of the prompt. -/
structure ContextMessage where
  role : String
  content : String
deriving DecidableEq

/-- `dict(message)`. -/
def ContextMessage.dump (m : ContextMessage) : Json := .dict [("role", .str m.role), ("content", .str m.content)]

/-- `ContextManifest.from_messages`. -/
def AccountedManifest.fromMessages (H : Hashing) (messages : List ContextMessage)
    (includedRefs excludedRefs : List String) (transform : List ContextTransform) (contractVersion : ℕ)
    (hversion : 1 ≤ contractVersion := by decide) : Except RuntimeError AccountedManifest :=
  let canonical := H.dumps (.list (messages.map ContextMessage.dump))
  match h : refError includedRefs excludedRefs transform with
  | some message => .error (.valueError message)
  | none => .ok {
      includedRefs, excludedRefs, transform, tokenEstimate := (canonical.length + 3) / 4, contractVersion,
      promptHash := hexdigest (H.sha256 canonical), contractVersion_ge := hversion, ref_accounting := h }

/-! ### Events as items -/

/-- `casefold`, `SkillActivation.model_validate_json`, which accepts a text or not, and `json.dumps` of an event. -/
structure ContextReader where
  casefold : String → String
  validActivation : String → Bool
  dumpEvent : Json → String

/-- `skill_activation_from_event`: whether the event is an activation. -/
def isSkillActivation (R : ContextReader) (event : Event) : Bool :=
  if event.type ≠ "tool.completed" then false
  else
    match event.get? "result" with
    | some (.dict result) =>
        if Dict.get? result "name" ≠ some (.str "skill.activate") then false
        else if R.casefold (Dict.getD result "status" (.str "")).pyStr ∉ ["ok", "success", "succeeded"] then
          false
        else
          match Dict.get? result "output" with
          | some (.str output) => R.validActivation output
          | _ => false
    | _ => false

/-- `_HYGIENE_TYPES`. -/
def hygieneTypes : List String :=
  ["mailbox.delivery.sent", "mailbox.delivery.acked", "runtime.agent.busy", "runtime.agent.idle",
    "runtime.agent.step.completed", "runtime.turn.ready", "loop.phase.changed", "context.manifest.compiled",
    "capability.manifest.compiled", "skill.catalog.compiled", "model.requested", "model.response.reused",
    "agent.command.reused"]

/-- `ContextBuilder`. -/
structure ContextBuilder where
  artifactStore : ArtifactStore
  offloadChars : ℕ := 8000
  recentEventLimit : ℕ := 20
  offloadedByEvent : String → Option ArtifactRef := fun _ => none
  lastManifest : Option AccountedManifest := none

namespace ContextBuilder

variable (R : ContextReader) (H : Hashing) (b : ContextBuilder)

/-- `_event_to_item`. -/
def eventToItem (event : Event) : ContextItem :=
  let kind := if event.type = "tool.completed" then "tool_result" else "event"
  let importance : ItemImportance :=
    if event.type ∈ ["assignment.created", "policy.updated"] then .critical else .normal
  let role := if kind = "tool_result" then "tool" else "user"
  if isSkillActivation R event then
    { role := "tool", kind := "duplicate_ok", importance := .low, sourceRef := some event.id,
      content := "[Skill activation moved to the protected active_skill slot]" }
  else
    match b.offloadedByEvent event.id with
    | some ref =>
        { role, kind, importance, sourceRef := some event.id, artifactRef := some ref,
          content := artifactPlaceholder ref }
    | none =>
        { role, kind, importance, sourceRef := some event.id,
          content := R.dumpEvent (.dict [("type", .str event.type), ("payload", .dict event.payload)]) }

/-- The reference under which an event is known, if it is not empty. -/
def sourceOf (item : ContextItem) : Option String := item.sourceRef.filter (· ≠ "")

/-- `_offloaded_by_event`, after the items of a pass. -/
def noteOffloads (items : List ContextItem) (known : String → Option ArtifactRef) :
    String → Option ArtifactRef :=
  items.foldl (fun known item =>
    match sourceOf item, item.artifactRef with
    | some source, some ref => fun id => if id = source then some ref else known id
    | _, _ => known) known

/-- `ContextBuilder.microcompact`. -/
def compactEvents (events : List Event) : MicrocompactResult × ContextBuilder :=
  let (result, store) := microcompact b.offloadChars (events.map (b.eventToItem R)) b.artifactStore
  (result, {
    b with artifactStore := store, offloadedByEvent := noteOffloads result.inlineItems b.offloadedByEvent })

/-- `xs[start:]`. -/
def sliceFrom {α : Type} (xs : List α) (start : ℤ) : List α :=
  if start < 0 then xs.drop (xs.length - start.natAbs) else xs.drop start.toNat

/-- `active_events`. -/
def activeEvents (events : List Event) : List Event := events.filter (·.type ∉ hygieneTypes)

/-- The items under their references, the last one under each. -/
def inlineByRef (items : List ContextItem) : Table (Prod.fst : String × ContextItem → String) :=
  items.foldl (fun table item =>
    match sourceOf item with
    | some source => table.upsert (source, item)
    | none => table) .empty

/-- The transform of an item that is included. -/
def inlineTransform (entry : String × ContextItem) : Except RuntimeError ContextTransform :=
  if entry.2.artifactRef.isSome then
    ContextTransform.checked entry.1 .ref ⟨"large result offloaded", by decide⟩
  else ContextTransform.checked entry.1 .inline ⟨"active recent fact", by decide⟩

/-- The manifest of the messages: what is in the view, and what is outside of it. -/
def manifestFor (events : List Event) (messages : List ContextMessage) (inline : List (String × ContextItem)) :
    Except RuntimeError AccountedManifest := do
  let includedRefs := inline.map Prod.fst
  let excludedRefs := (events.map (·.id)).filter (· ∉ includedRefs)
  let kept ← inline.mapM inlineTransform
  let discarded ← excludedRefs.mapM (fun ref =>
    ContextTransform.checked ref .discard ⟨"outside active context view", by decide⟩)
  AccountedManifest.fromMessages H messages includedRefs excludedRefs (kept ++ discarded) 1

/-- `messages`. -/
def messagesOf (items : List ContextItem) : List ContextMessage := items.map (fun item => ⟨item.role, item.content⟩)

/-- `selected_events`. -/
def selectedEvents (events : List Event) : List Event := sliceFrom (activeEvents events) (-b.recentEventLimit)

/-- `build_messages`. -/
def buildMessages (events : List Event) : Except RuntimeError (List ContextMessage × ContextBuilder) := do
  let compacted := b.compactEvents R (b.selectedEvents events)
  let items := compacted.1.inlineItems
  let manifest ← manifestFor H events (messagesOf items) (inlineByRef items).rows
  return (messagesOf items, { compacted.2 with lastManifest := some manifest })

/-! ### The window -/

variable {R : ContextReader} {H : Hashing} {b : ContextBuilder}

/-- The events of the window that are not moved to a slot of their own. -/
def keptEvents (R : ContextReader) (b : ContextBuilder) (events : List Event) : List Event :=
  (b.selectedEvents events).filter (¬ isSkillActivation R ·)

theorem sliceFrom_neg {α : Type} (xs : List α) (n : ℕ) :
    sliceFrom xs (-n) = if n = 0 then xs else xs.drop (xs.length - n) := by
  unfold sliceFrom
  by_cases hn : n = 0
  · subst hn
    simp
  · have hneg : (-(n : ℤ)) < 0 := by omega
    rw [if_pos hneg, if_neg hn, Int.natAbs_neg, Int.natAbs_natCast]

theorem sliceFrom_sublist {α : Type} (xs : List α) (start : ℤ) : (sliceFrom xs start).Sublist xs := by
  unfold sliceFrom
  split
  · exact List.drop_sublist _ _
  · exact List.drop_sublist _ _

theorem keptEvents_sublist (events : List Event) : (keptEvents R b events).Sublist events :=
  List.filter_sublist.trans ((sliceFrom_sublist _ _).trans List.filter_sublist)

theorem importance_eventToItem {event : Event} (h : isSkillActivation R event = false) :
    (b.eventToItem R event).importance ≠ .low := by
  have himportance : (b.eventToItem R event).importance =
      if event.type ∈ ["assignment.created", "policy.updated"] then .critical else .normal := by
    unfold eventToItem
    rw [h]
    cases b.offloadedByEvent event.id <;> rfl
  rw [himportance]
  split <;> simp

/-- Only skill activations are discarded. -/
theorem discardable_eventToItem {event : Event} :
    (b.eventToItem R event).Discardable ↔ isSkillActivation R event = true := by
  cases hskill : isSkillActivation R event with
  | true => simp [eventToItem, hskill, ContextItem.Discardable]
  | false =>
      constructor
      · intro h
        exact (importance_eventToItem hskill h.1).elim
      · intro h
        cases h

theorem sourceRef_eventToItem (event : Event) : (b.eventToItem R event).sourceRef = some event.id := by
  unfold eventToItem
  cases isSkillActivation R event with
  | true => rfl
  | false => cases b.offloadedByEvent event.id <;> rfl

theorem sourceRef_becomes {offloadChars : ℕ} {store : ArtifactStore} {item kept : ContextItem}
    (h : BecomesIn offloadChars store item kept) : kept.sourceRef = item.sourceRef := by
  cases h with
  | inline => rfl
  | referenced =>
      unfold CrazyHarness.referenced
      split <;> rfl
  | offloaded => rfl

/-- The messages are those of the kept events, in their order. -/
theorem sources_compactEvents (events : List Event) :
    (b.compactEvents R events).1.inlineItems.map (·.sourceRef) =
      (events.filter (¬ isSkillActivation R ·)).map (some ·.id) := by
  obtain ⟨_, _, hkept⟩ := microcompact_spec
    (events.map (b.eventToItem R)) b.artifactStore
  have hsources : ∀ (items kept : List ContextItem) (store : ArtifactStore),
      List.Forall₂ (BecomesIn b.offloadChars store) items kept →
        kept.map (·.sourceRef) = items.map (·.sourceRef) := by
    intro items kept store h
    induction h with
    | nil => rfl
    | cons hitem _ ih => rw [List.map_cons, List.map_cons, sourceRef_becomes hitem, ih]
  have hfilter : (events.map (b.eventToItem R)).filter (¬ ·.Discardable) =
      (events.filter (¬ isSkillActivation R ·)).map (b.eventToItem R) := by
    rw [List.filter_map]
    congr 1
    refine List.filter_congr ?_
    intro event _
    simp [discardable_eventToItem]
  have hmap := hsources _ _ _ hkept
  rw [hfilter, List.map_map] at hmap
  refine hmap.trans (List.map_congr_left ?_)
  intro event _
  exact sourceRef_eventToItem event

/-! ### The accounting -/

theorem rows_foldl_inlineByRef (items : List ContextItem)
    (table : Table (Prod.fst : String × ContextItem → String))
    (h : (table.rows.map Prod.fst ++ items.filterMap sourceOf).Nodup) :
    ((items.foldl (fun table item =>
      match sourceOf item with
      | some source => table.upsert (source, item)
      | none => table) table).rows.map Prod.fst) = table.rows.map Prod.fst ++ items.filterMap sourceOf := by
  induction items generalizing table with
  | nil => simp
  | cons item items ih =>
      rw [List.foldl_cons]
      cases hsource : sourceOf item with
      | none =>
          rw [List.filterMap_cons_none hsource] at h ⊢
          exact ih table h
      | some source =>
          rw [List.filterMap_cons_some hsource] at h ⊢
          have hnew : table.lookup source = none := by
            refine Table.lookup_eq_none_iff.mpr ?_
            intro row hrow hkey
            have hdisjoint := (List.nodup_append.mp h).2.2
            exact hdisjoint _ (List.mem_map_of_mem hrow) source List.mem_cons_self hkey
          have hrows : (table.upsert (source, item)).rows = table.rows ++ [(source, item)] := by
            unfold Table.upsert
            rw [dif_pos hnew]
            rfl
          have happend : (table.upsert (source, item)).rows.map Prod.fst =
              table.rows.map Prod.fst ++ [source] := by
            rw [hrows, List.map_append, List.map_singleton]
          dsimp only
          rw [ih, happend, List.append_assoc, List.singleton_append]
          rwa [happend, List.append_assoc, List.singleton_append]

theorem keys_inlineByRef {items : List ContextItem} (h : (items.filterMap sourceOf).Nodup) :
    (inlineByRef items).rows.map Prod.fst = items.filterMap sourceOf :=
  rows_foldl_inlineByRef items .empty h

theorem filterMap_sourceOf {items : List ContextItem} {ids : List String}
    (h : items.map (·.sourceRef) = ids.map some) : items.filterMap sourceOf = ids.filter (· ≠ "") := by
  have hsource : items.filterMap sourceOf =
      (items.map (·.sourceRef)).filterMap (fun source => source.filter (· ≠ "")) := by
    rw [List.filterMap_map]
    rfl
  rw [hsource, h, List.filterMap_map, ← List.filterMap_eq_filter]
  refine List.filterMap_congr ?_
  intro id _
  by_cases hid : id = "" <;> simp [hid, Option.filter, Option.guard]

theorem refError_eq_none {included excluded : List String} {kept discarded : List ContextTransform}
    (hdisjoint : ∀ ref ∈ included, ref ∉ excluded)
    (hkept : ∀ t ∈ kept, t.representation ≠ .discard ∧ t.ref.1 ∈ included)
    (hdiscarded : ∀ t ∈ discarded, t.representation = .discard ∧ t.ref.1 ∈ excluded) :
    refError included excluded (kept ++ discarded) = none := by
  have hoverlap : included.filter (· ∈ excluded) = [] := by
    rw [List.filter_eq_nil_iff]
    intro ref href
    simpa using hdisjoint ref href
  unfold refError
  simp only [hoverlap, List.dedup_nil, ne_eq, not_true_eq_false, if_false]
  rw [List.findSome?_eq_none_iff]
  intro t ht
  rcases List.mem_append.mp ht with ht | ht
  · obtain ⟨hrepresentation, hmem⟩ := hkept t ht
    simp [hrepresentation, hmem]
  · obtain ⟨hrepresentation, hmem⟩ := hdiscarded t ht
    simp [hrepresentation, hmem]

theorem checked_ok {ref : String} (h : ref ≠ "") (representation : ContextRepresentation)
    (reason : SizedString 1 none) : ∃ t, ContextTransform.checked ref representation reason = .ok t := by
  have hlength : 1 ≤ ref.length ∧ ∀ m ∈ (none : Option ℕ), ref.length ≤ m := by
    refine ⟨Nat.one_le_iff_ne_zero.mpr ?_, by simp⟩
    rwa [Ne, String.length_eq_zero_iff]
  unfold ContextTransform.checked SizedString.ofString
  rw [dif_pos hlength]
  exact ⟨_, rfl⟩

theorem of_checked {ref : String} {representation : ContextRepresentation} {reason : SizedString 1 none}
    {t : ContextTransform} (h : ContextTransform.checked ref representation reason = .ok t) :
    ref ≠ "" ∧ t.ref.1 = ref ∧ t.representation = representation := by
  unfold ContextTransform.checked SizedString.ofString at h
  split at h
  · next sized hsized =>
      obtain rfl := Except.ok.inj h
      split at hsized
      · next hlength =>
          obtain rfl := Option.some.inj hsized
          refine ⟨?_, rfl, rfl⟩
          rintro rfl
          exact absurd hlength.1 (by decide)
      · cases hsized
  · cases h

theorem inlineTransform_ok {entry : String × ContextItem} (h : entry.1 ≠ "") :
    ∃ t, inlineTransform entry = .ok t := by
  unfold inlineTransform
  split
  · exact checked_ok h _ _
  · exact checked_ok h _ _

theorem of_inlineTransform {entry : String × ContextItem} {t : ContextTransform}
    (h : inlineTransform entry = .ok t) : t.representation ≠ .discard ∧ t.ref.1 = entry.1 := by
  unfold inlineTransform at h
  split at h
  · obtain ⟨_, href, hrepresentation⟩ := of_checked h
    exact ⟨by rw [hrepresentation]; decide, href⟩
  · obtain ⟨_, href, hrepresentation⟩ := of_checked h
    exact ⟨by rw [hrepresentation]; decide, href⟩

theorem mapM_ok {α β : Type} {f : α → Except RuntimeError β} {xs : List α}
    (h : ∀ x ∈ xs, ∃ y, f x = .ok y) : ∃ ys, xs.mapM f = .ok ys := by
  cases hxs : xs.mapM f with
  | ok ys => exact ⟨ys, rfl⟩
  | error e =>
      obtain ⟨x, hx, herror⟩ := exists_of_mapM_error hxs
      obtain ⟨y, hy⟩ := h x hx
      rw [herror] at hy
      cases hy

theorem fromMessages_ok {messages : List ContextMessage} {included excluded : List String}
    {transform : List ContextTransform} (h : refError included excluded transform = none) :
    ∃ manifest, AccountedManifest.fromMessages H messages included excluded transform 1 = .ok manifest ∧
      manifest.includedRefs = included ∧ manifest.excludedRefs = excluded := by
  unfold AccountedManifest.fromMessages
  dsimp only
  split
  · next message hmessage =>
      rw [h] at hmessage
      cases hmessage
  · exact ⟨_, rfl, rfl, rfl⟩

/-! ### What is built -/

/-- The references that are included. -/
def includedOf (R : ContextReader) (b : ContextBuilder) (events : List Event) : List String :=
  ((keptEvents R b events).map (·.id)).filter (· ≠ "")

theorem keys_compactEvents {events : List Event} (hnodup : (events.map (·.id)).Nodup) :
    (inlineByRef (b.compactEvents R (b.selectedEvents events)).1.inlineItems).rows.map Prod.fst =
      includedOf R b events := by
  have hsources := sources_compactEvents (R := R) (b := b) (b.selectedEvents events)
  have hids : (keptEvents R b events).map (some ·.id) = ((keptEvents R b events).map (·.id)).map some := by
    rw [List.map_map]
    rfl
  have hfilter := filterMap_sourceOf (hsources.trans hids)
  rw [keys_inlineByRef, hfilter]
  · rfl
  · rw [hfilter]
    exact (hnodup.sublist ((keptEvents_sublist events).map _)).filter _

theorem length_messagesOf (events : List Event) :
    (messagesOf (b.compactEvents R (b.selectedEvents events)).1.inlineItems).length =
      (keptEvents R b events).length := by
  have hsources := congrArg List.length (sources_compactEvents (R := R) (b := b) (b.selectedEvents events))
  rw [List.length_map, List.length_map] at hsources
  unfold messagesOf
  rw [List.length_map, hsources]
  rfl

/-- Events with identifiers of their own are accounted for. -/
theorem manifestFor_ok {events : List Event} {messages : List ContextMessage}
    {inline : List (String × ContextItem)} (hnodup : (events.map (·.id)).Nodup)
    (hids : ∀ e ∈ events, e.id ≠ "") (hkeys : (inline.map Prod.fst).Nodup)
    (hsub : ∀ ref ∈ inline.map Prod.fst, ref ∈ events.map (·.id)) :
    ∃ manifest, manifestFor H events messages inline = .ok manifest ∧
      (manifest.includedRefs ++ manifest.excludedRefs).Perm (events.map (·.id)) := by
  have hne : ∀ ref ∈ events.map (·.id), ref ≠ "" := by
    intro ref href
    obtain ⟨e, he, rfl⟩ := List.mem_map.mp href
    exact hids e he
  obtain ⟨kept, hkept⟩ := mapM_ok (f := inlineTransform)
    (fun entry hentry => inlineTransform_ok (hne _ (hsub _ (List.mem_map_of_mem hentry))))
  obtain ⟨discarded, hdiscarded⟩ := mapM_ok
    (f := fun ref => ContextTransform.checked ref .discard ⟨"outside active context view", by decide⟩)
    (fun ref href => checked_ok (hne ref (List.mem_of_mem_filter href)) _ _)
  have herror : refError (inline.map Prod.fst) ((events.map (·.id)).filter (· ∉ inline.map Prod.fst))
      (kept ++ discarded) = none := by
    refine refError_eq_none ?_ ?_ ?_
    · intro ref href hexcluded
      simp only [List.mem_filter, decide_eq_true_eq] at hexcluded
      exact hexcluded.2 href
    · intro t ht
      obtain ⟨entry, hentry, htransform⟩ := exists_of_mapM_ok hkept ht
      obtain ⟨hrepresentation, href⟩ := of_inlineTransform htransform
      exact ⟨hrepresentation, href ▸ List.mem_map_of_mem hentry⟩
    · intro t ht
      obtain ⟨ref, href, htransform⟩ := exists_of_mapM_ok hdiscarded ht
      obtain ⟨_, hsame, hrepresentation⟩ := of_checked htransform
      exact ⟨hrepresentation, hsame ▸ href⟩
  obtain ⟨manifest, hmanifest, hincluded, hexcluded⟩ :=
    fromMessages_ok (H := H) herror
  unfold manifestFor
  simp only [hkept, ok_bind, hdiscarded]
  refine ⟨manifest, hmanifest, ?_⟩
  rw [hincluded, hexcluded]
  exact perm_append_filter_not_mem hkeys hnodup hsub

/-- An event without an identifier cannot be accounted for. -/
theorem ids_of_manifestFor {events : List Event} {messages : List ContextMessage}
    {inline : List (String × ContextItem)} {manifest : AccountedManifest}
    (hkeys : "" ∉ inline.map Prod.fst) (h : manifestFor H events messages inline = .ok manifest) :
    ∀ e ∈ events, e.id ≠ "" := by
  intro e he hid
  unfold manifestFor at h
  obtain ⟨kept, _, h₁⟩ := bind_ok_iff.mp h
  obtain ⟨discarded, hdiscarded, _⟩ := bind_ok_iff.mp h₁
  have hexcluded : "" ∈ (events.map (·.id)).filter (· ∉ inline.map Prod.fst) :=
    List.mem_filter.mpr ⟨hid ▸ List.mem_map_of_mem he, decide_eq_true hkeys⟩
  obtain ⟨t, _, ht⟩ := mem_of_mapM_ok hdiscarded hexcluded
  exact (of_checked ht).1 rfl

theorem buildMessages_ok {events : List Event} (hnodup : (events.map (·.id)).Nodup)
    (hids : ∀ e ∈ events, e.id ≠ "") :
    ∃ messages b' manifest, b.buildMessages R H events = .ok (messages, b') ∧
      b'.lastManifest = some manifest ∧ messages.length = (keptEvents R b events).length ∧
      (manifest.includedRefs ++ manifest.excludedRefs).Perm (events.map (·.id)) := by
  have hkeys := keys_compactEvents (R := R) (b := b) hnodup
  have hsub : ∀ ref ∈ includedOf R b events, ref ∈ events.map (·.id) := fun ref href =>
    ((keptEvents_sublist events).map _).subset (List.mem_of_mem_filter href)
  have hincluded : (includedOf R b events).Nodup :=
    (hnodup.sublist ((keptEvents_sublist events).map _)).filter _
  rw [← hkeys] at hsub hincluded
  obtain ⟨manifest, hmanifest, hperm⟩ := @manifestFor_ok H events
    (messagesOf (b.compactEvents R (b.selectedEvents events)).1.inlineItems) _ hnodup hids hincluded hsub
  unfold buildMessages
  simp only [hmanifest, ok_bind]
  exact ⟨_, _, manifest, rfl, rfl, length_messagesOf events, hperm⟩

theorem ids_of_buildMessages {events : List Event} (hnodup : (events.map (·.id)).Nodup)
    {r : List ContextMessage × ContextBuilder} (h : b.buildMessages R H events = .ok r) :
    ∀ e ∈ events, e.id ≠ "" := by
  unfold buildMessages at h
  obtain ⟨manifest, hmanifest, _⟩ := bind_ok_iff.mp h
  refine ids_of_manifestFor ?_ hmanifest
  rw [keys_compactEvents hnodup]
  simp [includedOf]

/-! ### The promise -/

/-- What `build_messages` promises. -/
def Windowed (R : ContextReader) (H : Hashing) (b : ContextBuilder) (events : List Event) : Prop :=
  ∃ messages b' manifest, b.buildMessages R H events = .ok (messages, b') ∧
    b'.lastManifest = some manifest ∧ messages.length ≤ b.recentEventLimit ∧
    (manifest.includedRefs ++ manifest.excludedRefs).Perm (events.map (·.id))

/-- The window is not empty, or nothing would be in it; and every event has an identifier. -/
def WindowBounds (R : ContextReader) (b : ContextBuilder) (events : List Event) : Prop :=
  (b.recentEventLimit ≠ 0 ∨ ∀ e ∈ activeEvents events, isSkillActivation R e = true) ∧
    ∀ e ∈ events, e.id ≠ ""

theorem length_keptEvents_le_iff (events : List Event) :
    (keptEvents R b events).length ≤ b.recentEventLimit ↔
      b.recentEventLimit ≠ 0 ∨ ∀ e ∈ activeEvents events, isSkillActivation R e = true := by
  unfold keptEvents selectedEvents
  rw [sliceFrom_neg]
  by_cases hlimit : b.recentEventLimit = 0
  · rw [if_pos hlimit, hlimit, Nat.le_zero, List.length_eq_zero_iff, List.filter_eq_nil_iff]
    simp
  · rw [if_neg hlimit]
    refine iff_of_true ?_ (.inl hlimit)
    refine (List.length_filter_le _ _).trans ?_
    rw [List.length_drop]
    omega

theorem windowed_iff {events : List Event} (hnodup : (events.map (·.id)).Nodup) :
    Windowed R H b events ↔ WindowBounds R b events := by
  constructor
  · rintro ⟨messages, b', manifest, hbuild, hmanifest, hlength, hperm⟩
    have hids := ids_of_buildMessages hnodup hbuild
    obtain ⟨messages', b'', _, hbuild', _, hlength', _⟩ :=
      buildMessages_ok (R := R) (H := H) (b := b) hnodup hids
    obtain ⟨rfl, -⟩ := Prod.mk.inj (Except.ok.inj (hbuild.symm.trans hbuild'))
    exact ⟨(length_keptEvents_le_iff events).mp (hlength' ▸ hlength), hids⟩
  · rintro ⟨hwindow, hids⟩
    obtain ⟨messages, b', manifest, hbuild, hmanifest, hlength, hperm⟩ :=
      buildMessages_ok (R := R) (H := H) (b := b) hnodup hids
    exact ⟨messages, b', manifest, hbuild, hmanifest,
      hlength ▸ (length_keptEvents_le_iff events).mpr hwindow, hperm⟩

end ContextBuilder

/-- Compacting the items and building the messages lose nothing. -/
def LosesNothing (R : ContextReader) (H : Hashing) (original : ContextItem → String) (offloadChars : ℕ)
    (items : List ContextItem) (store : ArtifactStore) (b : ContextBuilder) (events : List Event) : Prop :=
  Compacted original items (microcompact offloadChars items store).1
      (microcompact offloadChars items store).2 ∧
    b.Windowed R H events

/-- Nothing is lost exactly where no offloaded text has a carriage return, the window is not empty or nothing would
be in it, and every event has an identifier. -/
theorem losesNothing_iff (R : ContextReader) (H : Hashing) (original : ContextItem → String)
    (offloadChars : ℕ) (items : List ContextItem) (store : ArtifactStore) (b : ContextBuilder)
    (events : List Event) (hstores : ∀ item ∈ items, Stores store item (original item))
    (hnodup : (events.map (·.id)).Nodup) :
    LosesNothing R H original offloadChars items store b events ↔
      OffloadsReadBack offloadChars items ∧ b.WindowBounds R events :=
  and_congr (compacted_iff hstores) (ContextBuilder.windowed_iff hnodup)

/-! ### A window of no events -/

/-- A store without files. -/
def emptyArtifacts : ArtifactStore where
  root := "artifacts"
  files := fun _ => none
  drawn := 0
  fresh := fun _ _ _ => rfl

/-- A reader that takes no text for an activation. -/
def plainReader : ContextReader where
  casefold := id
  validActivation := fun _ => false
  dumpEvent := Json.pyStr

/-- Every text has the digest zero. -/
def zeroHashing : Hashing where
  sha256 := fun _ => 0
  dumps := Json.pyStr

/-- An event of the team. -/
def observation : Event where
  id := "event-1"
  runId := "run"
  taskId := "team"
  type := "observation"
  source := "builder"
  payload := []
  createdAt := ⟨0, some 0⟩

/-- A builder whose window has this many events. -/
def windowOf (n : ℕ) : ContextBuilder where
  artifactStore := emptyArtifacts
  recentEventLimit := n

theorem not_losesNothing :
    ¬ ∀ (R : ContextReader) (H : Hashing) (original : ContextItem → String) (offloadChars : ℕ)
      (items : List ContextItem) (store : ArtifactStore) (b : ContextBuilder) (events : List Event),
      (∀ item ∈ items, Stores store item (original item)) → (events.map (·.id)).Nodup →
        LosesNothing R H original offloadChars items store b events := by
  intro h
  have hwindowed := (h plainReader zeroHashing ContextItem.content 8000 [] emptyArtifacts (windowOf 0)
    [observation] (by simp) (by simp)).2
  obtain ⟨hwindow, -⟩ := (ContextBuilder.windowed_iff (by simp)).mp hwindowed
  rcases hwindow with hlimit | hskills
  · exact hlimit rfl
  · exact absurd (hskills observation (by decide)) (by decide)

/-- A reference to the log of an earlier turn. -/
def earlierRef : ArtifactRef := (emptyArtifacts.writeText "log" "the earlier log" "earlier").1

/-- A store that holds this log. -/
def earlierStore : ArtifactStore := (emptyArtifacts.writeText "log" "the earlier log" "earlier").2

/-- The result of a tool, a reference, a policy and a nudge. -/
def mixedItems (result : String) : List ContextItem :=
  [{ role := "tool", content := result, kind := "tool_result" },
    { role := "tool", content := artifactPlaceholder earlierRef, kind := "log",
      artifactRef := some earlierRef },
    { role := "system", content := "no network", kind := "policy" },
    { role := "user", content := "go on", importance := .low, kind := "nudge" }]

/-- The text of an item, or of the file that it refers to. -/
def originalText (item : ContextItem) : String :=
  match item.artifactRef with
  | none => item.content
  | some ref => (earlierStore.readText ref).getD ""

/-- Two events of the team. -/
def observations : List Event := [observation, { observation with id := "event-2" }]

theorem mixedItems_stored (result : String) :
    ∀ item ∈ mixedItems result, Stores earlierStore item (originalText item) := by
  simp only [mixedItems, List.forall_mem_cons]
  refine ⟨rfl, ?_, rfl, rfl, List.forall_mem_nil _⟩
  show earlierStore.readText earlierRef = some ((earlierStore.readText earlierRef).getD "")
  have hread : earlierStore.readText earlierRef = some (universalNewlines "the earlier log") :=
    ArtifactStore.readText_writeText _ _ _ _
  rw [hread]
  rfl

theorem windowBounds_observations : (windowOf 1).WindowBounds plainReader observations :=
  ⟨.inl (by decide), by decide⟩

/-- Among items of all sorts, a result is lost if it has a carriage return. -/
theorem losesNothing_iff_mixed :
    LosesNothing plainReader zeroHashing originalText 4 (mixedItems "one\ntwo") earlierStore (windowOf 1)
        observations ∧
      ¬ LosesNothing plainReader zeroHashing originalText 4 (mixedItems "one\r\ntwo") earlierStore (windowOf 1)
        observations := by
  have hnodup : (observations.map (·.id)).Nodup := by decide
  have hiff := fun result => losesNothing_iff plainReader zeroHashing originalText 4 (mixedItems result)
    earlierStore (windowOf 1) observations (mixedItems_stored result) hnodup
  rw [hiff, hiff]
  refine ⟨⟨?_, windowBounds_observations⟩, fun hnothing => ?_⟩
  · unfold OffloadsReadBack
    decide
  · exact absurd (hnothing.1 _ List.mem_cons_self rfl (by decide)) (by decide)

end CrazyHarness
