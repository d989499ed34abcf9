import CrazyHarness.Core.Events
import CrazyHarness.Lib.Table
import CrazyHarness.Runtime.Store

/-! # Safe prefixes

`select_safe_prefix`: the events are grouped into requests and their responses, and the cutoff moves back until
no group is split.

* `PairGroup.Splits` is the test of one group: a cut after its first request, and not after its last event.  A
  request without a response is split by every cut after it.
* `settleCutoff_greatest`: the loop ends at the last cut that no group is split by. -/

namespace CrazyHarness

open Lib

/-! ### Pairs -/

/-- `PairRole`. -/
inductive PairRole where
  | request
  | response
deriving DecidableEq

/-- `_PAIR_EVENT_TYPES`. -/
def pairEventTypes : List (String × String × PairRole) :=
  [("tool.requested", "tool", .request), ("tool.completed", "tool", .response),
    ("tool.failed", "tool", .response), ("peer.requested", "peer", .request),
    ("peer.responded", "peer", .response), ("a2a.requested", "peer", .request),
    ("a2a.responded", "peer", .response), ("approval.requested", "approval", .request),
    ("approval.decided", "approval", .response), ("approval.approved", "approval", .response),
    ("approval.rejected", "approval", .response), ("artifact.invalid", "artifact_repair", .request),
    ("artifact.repaired", "artifact_repair", .response),
    ("artifact.revision.completed", "artifact_repair", .response)]

/-- `_CORRELATION_FIELDS`. -/
def correlationFields : List String :=
  ["operation_id", "correlation_id", "request_id", "approval_id", "artifact_id", "message_id", "pair_id"]

namespace Event

/-- `event.payload.get(field)`, unless it is `None`. -/
def present? (e : Event) (field : String) : Option Json := (e.get? field).filter (· ≠ .null)

/-- The first correlation field that has a value. -/
def correlation? (e : Event) : Option Json := correlationFields.findSome? e.present?

end Event

/-- A key of `groups`. -/
abbrev PairKey := String × String

/-- `_pair_key`. -/
def pairKey (event : Event) (family : String) (role : PairRole) : Option PairKey :=
  match event.correlation? with
  | some value => some (family, value.pyStr)
  | none =>
      match role with
      | .request => some (family, event.id)
      | .response => event.causationId.map (fun cause => (family, cause))

/-! ### Groups -/

/-- One entry of `groups`. -/
structure PairGroup where
  key : PairKey
  request : List ℕ := []
  response : List ℕ := []

namespace PairGroup

/-- `roles[role]`. -/
def indices (g : PairGroup) : PairRole → List ℕ
  | .request => g.request
  | .response => g.response

/-- `roles[role].append(index)`. -/
def add (g : PairGroup) (index : ℕ) : PairRole → PairGroup
  | .request => { g with request := g.request ++ [index] }
  | .response => { g with response := g.response ++ [index] }

@[simp] theorem key_add (g : PairGroup) (index : ℕ) (role : PairRole) : (g.add index role).key = g.key := by
  cases role <;> rfl

theorem mem_indices_add {g : PairGroup} {index i : ℕ} {role role' : PairRole} :
    i ∈ (g.add index role).indices role' ↔ i ∈ g.indices role' ∨ role' = role ∧ i = index := by
  cases role <;> cases role' <;> simp [add, indices]

/-- The cutoff splits the group. -/
def Splits (g : PairGroup) (cutoff : ℕ) : Prop :=
  match g.request.min?, (g.request ++ g.response).max? with
  | some first, some last => first < cutoff ∧ (g.response = [] ∨ cutoff ≤ last)
  | _, _ => False

instance (g : PairGroup) (cutoff : ℕ) : Decidable (g.Splits cutoff) := by
  unfold Splits
  split <;> infer_instance

end PairGroup

/-- One entry of `request_keys`. -/
structure RequestKey where
  request : PairKey
  key : PairKey

/-- `groups` and `request_keys`. -/
structure Grouping where
  groups : Table PairGroup.key := .empty
  requestKeys : Table RequestKey.request := .empty

namespace Grouping

/-- The key that an event is grouped under. -/
def keyOf (g : Grouping) (event : Event) (family : String) (role : PairRole) : Option PairKey :=
  match role, g.requestKeys.lookup (family, event.causationId.getD "") with
  | .response, some causal => some causal.key
  | _, _ => pairKey event family role

/-- The group under a key. -/
def groupAt (g : Grouping) (key : PairKey) : PairGroup := (g.groups.lookup key).getD { key }

/-- An index that joins a group. -/
def join (g : Grouping) (index : ℕ) (event : Event) (family : String) (role : PairRole) (key : PairKey) :
    Grouping where
  groups := g.groups.upsert ((g.groupAt key).add index role)
  requestKeys :=
    match role with
    | .request => g.requestKeys.upsert ⟨(family, event.id), key⟩
    | .response => g.requestKeys

/-- One round of the first loop. -/
def step (g : Grouping) (entry : Event × ℕ) : Grouping :=
  match pairEventTypes.lookup entry.1.type with
  | none => g
  | some (family, role) =>
      match g.keyOf entry.1 family role with
      | none => g
      | some key => g.join entry.2 entry.1 family role key

end Grouping

/-- The first loop. -/
def grouping (events : List Event) : Grouping := events.zipIdx.foldl Grouping.step {}

/-! ### Cutoffs -/

/-- `unsafe_starts`. -/
def unsafeStarts (groups : List PairGroup) (cutoff : ℕ) : List ℕ :=
  groups.filterMap (fun g => if g.Splits cutoff then g.request.min? else none)

theorem mem_unsafeStarts {groups : List PairGroup} {cutoff first : ℕ} :
    first ∈ unsafeStarts groups cutoff ↔ ∃ g ∈ groups, g.Splits cutoff ∧ g.request.min? = some first := by
  unfold unsafeStarts
  rw [List.mem_filterMap]
  constructor
  · rintro ⟨g, hg, h⟩
    split at h
    · next hsplits => exact ⟨g, hg, hsplits, h⟩
    · cases h
  · rintro ⟨g, hg, hsplits, h⟩
    exact ⟨g, hg, by rw [if_pos hsplits]; exact h⟩

theorem PairGroup.splits_iff {g : PairGroup} {cutoff first : ℕ} (h : g.request.min? = some first) :
    g.Splits cutoff ↔
      first < cutoff ∧ (g.response = [] ∨ ∃ i ∈ g.request ++ g.response, cutoff ≤ i) := by
  have hmem : first ∈ g.request := (List.min?_eq_some_iff.mp h).1
  obtain ⟨last, hlast⟩ : ∃ last, (g.request ++ g.response).max? = some last := by
    refine Option.isSome_iff_exists.mp ?_
    rw [List.isSome_max?_iff]
    exact List.append_ne_nil_of_left_ne_nil (List.ne_nil_of_mem hmem) _
  have hmax := List.max?_eq_some_iff.mp hlast
  unfold Splits
  rw [h, hlast]
  refine and_congr_right (fun _ => or_congr_right ?_)
  constructor
  · intro hle
    exact ⟨last, hmax.1, hle⟩
  · rintro ⟨i, hi, hle⟩
    exact hle.trans (hmax.2 i hi)

/-- The second loop; a start that is found lies before the cutoff. -/
def settleCutoff (groups : List PairGroup) (cutoff : ℕ) : ℕ :=
  match _h : (unsafeStarts groups cutoff).min? with
  | none => cutoff
  | some first => settleCutoff groups first
termination_by cutoff
decreasing_by
  obtain ⟨g, _, hsplits, hmin⟩ := mem_unsafeStarts.mp (List.min?_eq_some_iff.mp _h).1
  exact ((PairGroup.splits_iff hmin).mp hsplits).1

/-- `SafePrefixSelection`. -/
structure SafePrefixSelection where
  requestedCount : ℤ
  prefixEvents : List Event
  suffixEvents : List Event
  blockedByPair : Bool

/-- `select_safe_prefix`. -/
def selectSafePrefix (events : List Event) (requestedCount : ℤ) :
    Except RuntimeError SafePrefixSelection :=
  if requestedCount < 0 ∨ requestedCount > events.length then
    .error (.valueError "requested_count must be between zero and the event count")
  else
    let cutoff := settleCutoff (grouping events).groups.rows requestedCount.toNat
    .ok {
      requestedCount, prefixEvents := events.take cutoff, suffixEvents := events.drop cutoff,
      blockedByPair := cutoff ≠ requestedCount.toNat }

/-! ### The last safe cut -/

/-- Every cut after the start of a split group, up to the cutoff, splits it. -/
theorem PairGroup.Splits.of_le {g : PairGroup} {cutoff first c : ℕ} (h : g.Splits cutoff)
    (hmin : g.request.min? = some first) (hfirst : first < c) (hc : c ≤ cutoff) : g.Splits c := by
  rw [PairGroup.splits_iff hmin] at h ⊢
  refine ⟨hfirst, h.2.imp_right ?_⟩
  rintro ⟨i, hi, hle⟩
  exact ⟨i, hi, hc.trans hle⟩

theorem PairGroup.Splits.exists_first {g : PairGroup} {cutoff : ℕ} (h : g.Splits cutoff) :
    ∃ first, g.request.min? = some first := by
  unfold Splits at h
  split at h
  · next first last hfirst hlast => exact ⟨first, hfirst⟩
  · exact h.elim

theorem settleCutoff_greatest (groups : List PairGroup) (cutoff : ℕ) :
    settleCutoff groups cutoff ≤ cutoff ∧ (∀ g ∈ groups, ¬ g.Splits (settleCutoff groups cutoff)) ∧
      ∀ c, settleCutoff groups cutoff < c → c ≤ cutoff → ∃ g ∈ groups, g.Splits c := by
  induction cutoff using Nat.strong_induction_on with
  | _ cutoff ih =>
      rw [settleCutoff]
      split
      · next hnone =>
          rw [List.min?_eq_none_iff] at hnone
          refine ⟨le_refl _, ?_, fun c hlt hle => absurd hlt (not_lt.mpr hle)⟩
          intro g hg hsplits
          obtain ⟨first, hmin⟩ := hsplits.exists_first
          have hmem := mem_unsafeStarts.mpr ⟨g, hg, hsplits, hmin⟩
          rw [hnone] at hmem
          cases hmem
      · next first hsome =>
          obtain ⟨g, hg, hsplits, hmin⟩ := mem_unsafeStarts.mp (List.min?_eq_some_iff.mp hsome).1
          have hlt : first < cutoff := ((PairGroup.splits_iff hmin).mp hsplits).1
          obtain ⟨hle, hunsplit, hgreatest⟩ := ih first hlt
          refine ⟨hle.trans hlt.le, hunsplit, ?_⟩
          intro c hc hcutoff
          rcases Nat.lt_or_ge first c with hfirst | hfirst
          · exact ⟨g, hg, hsplits.of_le hmin hfirst hcutoff⟩
          · exact hgreatest c hc hfirst

end CrazyHarness
