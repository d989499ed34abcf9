import CrazyHarness.Context.SafePrefix

/-! # Pairs across a cutoff

Which requests and responses the harness records, and which of these pairs the selection keeps together.

* `grouped`: the two events of a pair of listed types are in one group.
* `mem_indices_iff`: which events a group holds, read off the events.
* `safePrefix_iff`: the types of a peer request and its response are not listed, so such a pair is kept together
  only where pairs of listed types cross the cuts between the two. -/

namespace CrazyHarness

open Lib

/-! ### Recorded pairs -/

/-- The kinds of requests that the harness records with their responses. -/
inductive PairKind where
  | tool
  | peer
  | approval
  | artifactRepair
deriving DecidableEq

namespace PairKind

/-- The type under which a request is recorded. -/
def requestType : PairKind → String
  | .tool => "tool.requested"
  | .peer => "a2a.peer.requested"
  | .approval => "approval.requested"
  | .artifactRepair => "artifact.invalid"

/-- The types under which a response is recorded. -/
def responseTypes : PairKind → List String
  | .tool => ["tool.completed", "tool.failed"]
  | .peer => ["a2a.peer.responded"]
  | .approval => ["approval.decided", "approval.approved", "approval.rejected"]
  | .artifactRepair => ["artifact.repaired", "artifact.revision.completed"]

/-- The value that correlates a request with its response. -/
def correlation? : PairKind → Event → Option Json
  | .tool, e => e.present? "operation_id"
  | .peer, e => e.present? "correlation_id"
  | .approval, e => e.correlation?
  | .artifactRepair, e => e.correlation?

end PairKind

/-- The response names its request: as its cause, which no other event is, or by the value that correlates them,
while no request is its cause. -/
def AnswersRequest (events : List Event) (kind : PairKind) (i : ℕ) (request response : Event) : Prop :=
  (response.causationId = some request.id ∧ ∀ k e, events[k]? = some e → e.id = request.id → k = i) ∨
    ((∃ v, kind.correlation? request = some v ∧ kind.correlation? response = some v) ∧
      ∀ e ∈ events, e.type = kind.requestType → e.id ≠ response.causationId.getD "")

/-- The events at two positions are a request and its response. -/
def RecordedPair (events : List Event) (kind : PairKind) (i j : ℕ) : Prop :=
  ∃ request response, events[i]? = some request ∧ events[j]? = some response ∧
    request.type = kind.requestType ∧ response.type ∈ kind.responseTypes ∧
    AnswersRequest events kind i request response

/-! ### Grouping, event by event -/

namespace Grouping

theorem key_groupAt (g : Grouping) (key : PairKey) : (g.groupAt key).key = key := by
  unfold groupAt
  cases h : g.groups.lookup key with
  | none => rfl
  | some group => exact Table.key_of_lookup h

theorem lookup_join (g : Grouping) (index : ℕ) (event : Event) (family : String) (role : PairRole)
    (key key' : PairKey) :
    (g.join index event family role key).groups.lookup key' =
      if key' = key then some ((g.groupAt key).add index role) else g.groups.lookup key' := by
  simp [join, Table.lookup_upsert, key_groupAt]

theorem mem_indices_groupAt {g : Grouping} {key : PairKey} {role : PairRole} {i : ℕ} :
    i ∈ (g.groupAt key).indices role ↔ ∃ group, g.groups.lookup key = some group ∧ i ∈ group.indices role := by
  unfold groupAt
  cases h : g.groups.lookup key with
  | none => cases role <;> simp [PairGroup.indices]
  | some group => simp

/-- A step enters the position of an event in the group of its key. -/
theorem mem_indices_step {g : Grouping} {e : Event} {n : ℕ} {keyAt : String → PairRole → Option PairKey}
    (hkeyAt : ∀ family role, g.keyOf e family role = keyAt family role) (key : PairKey) (role : PairRole)
    (i : ℕ) :
    (∃ group, (g.step (e, n)).groups.lookup key = some group ∧ i ∈ group.indices role) ↔
      (∃ group, g.groups.lookup key = some group ∧ i ∈ group.indices role) ∨ i = n ∧
        ∃ family, pairEventTypes.lookup e.type = some (family, role) ∧ keyAt family role = some key := by
  unfold step
  cases htype : pairEventTypes.lookup e.type with
  | none => simp
  | some found =>
      obtain ⟨family, role'⟩ := found
      simp only [hkeyAt]
      cases hkey : keyAt family role' with
      | none =>
          refine ⟨.inl, ?_⟩
          rintro (h | ⟨_, family', hfound, hsome⟩)
          · exact h
          · obtain ⟨rfl, rfl⟩ := Prod.ext_iff.mp (Option.some.inj hfound)
            exact (Option.some_ne_none _ (hsome.symm.trans hkey)).elim
      | some key' =>
          dsimp only
          rw [lookup_join]
          by_cases heq : key = key'
          · subst heq
            rw [if_pos rfl]
            constructor
            · rintro ⟨group, hgroup, hi⟩
              obtain rfl := Option.some.inj hgroup
              rcases PairGroup.mem_indices_add.mp hi with hold | ⟨rfl, rfl⟩
              · exact .inl (mem_indices_groupAt.mp hold)
              · exact .inr ⟨rfl, family, rfl, hkey⟩
            · intro h
              refine ⟨_, rfl, PairGroup.mem_indices_add.mpr ?_⟩
              rcases h with hold | ⟨rfl, family', hfound, _⟩
              · exact .inl (mem_indices_groupAt.mpr hold)
              · exact .inr ⟨(Prod.ext_iff.mp (Option.some.inj hfound)).2.symm, rfl⟩
          · rw [if_neg heq]
            refine ⟨.inl, ?_⟩
            rintro (h | ⟨_, family', hfound, hsome⟩)
            · exact h
            · obtain ⟨rfl, rfl⟩ := Prod.ext_iff.mp (Option.some.inj hfound)
              exact (heq (Option.some.inj (hsome.symm.trans hkey))).elim

end Grouping

theorem grouping_append_singleton (done : List Event) (e : Event) :
    grouping (done ++ [e]) = (grouping done).step (e, done.length) := by
  simp [grouping, List.zipIdx_append]

theorem exists_pairKey_request (e : Event) (family : String) :
    ∃ key, pairKey e family .request = some key := by
  unfold pairKey
  cases e.correlation? with
  | none => exact ⟨_, rfl⟩
  | some value => exact ⟨_, rfl⟩

/-- A step enters a request, and leaves the other entries as they are. -/
theorem lookup_requestKeys_step (g : Grouping) (e : Event) (i : ℕ) (family id : String) :
    (pairEventTypes.lookup e.type = some (family, .request) ∧ e.id = id ∧
        ∃ entry, (g.step (e, i)).requestKeys.lookup (family, id) = some entry ∧
          pairKey e family .request = some entry.key) ∨
      ¬ (pairEventTypes.lookup e.type = some (family, .request) ∧ e.id = id) ∧
        (g.step (e, i)).requestKeys.lookup (family, id) = g.requestKeys.lookup (family, id) := by
  unfold Grouping.step
  cases htype : pairEventTypes.lookup e.type with
  | none => exact .inr ⟨by simp, rfl⟩
  | some found =>
      obtain ⟨family', role⟩ := found
      cases role with
      | response =>
          refine .inr ⟨by simp, ?_⟩
          dsimp only
          split <;> rfl
      | request =>
          obtain ⟨key, hkey⟩ := exists_pairKey_request e family'
          have hkeyOf : g.keyOf e family' .request = some key := hkey
          simp only [hkeyOf, Grouping.join]
          by_cases hsame : family' = family ∧ e.id = id
          · obtain ⟨rfl, rfl⟩ := hsame
            exact .inl ⟨rfl, rfl, ⟨(family', e.id), key⟩, Table.lookup_upsert_self _ _, hkey⟩
          · refine .inr ⟨?_, Table.lookup_upsert_ne _ _ ?_⟩
            · rintro ⟨h, hid⟩
              exact hsame ⟨(Prod.ext_iff.mp (Option.some.inj h)).1, hid⟩
            · intro h
              obtain ⟨hfamily, hid⟩ := Prod.ext_iff.mp h
              exact hsame ⟨hfamily.symm, hid.symm⟩

/-! ### Groups, read off the events -/

/-- The last request of the family with the id. -/
def lastRequest (events : List Event) (family id : String) : Option Event :=
  events.reverse.find? (fun e => pairEventTypes.lookup e.type = some (family, .request) ∧ e.id = id)

/-- The key of an event that follows others: a response whose cause is a request has the key of that request. -/
def filedKey (earlier : List Event) (event : Event) (family : String) (role : PairRole) : Option PairKey :=
  match role, lastRequest earlier family (event.causationId.getD "") with
  | .response, some request => pairKey request family .request
  | _, _ => pairKey event family role

/-- The event at the position is of a listed type and has the key. -/
def Filed (events : List Event) (key : PairKey) (role : PairRole) (i : ℕ) : Prop :=
  ∃ e family, events[i]? = some e ∧ pairEventTypes.lookup e.type = some (family, role) ∧
    filedKey (events.take i) e family role = some key

/-- The cut lies after a request, and before another event with its key unless no response has that key. -/
def Crossed (events : List Event) (c : ℕ) : Prop :=
  ∃ key i, i < c ∧ Filed events key .request i ∧
    ((∀ j, ¬ Filed events key .response j) ∨ ∃ role j, c ≤ j ∧ Filed events key role j)

theorem lastRequest_append_singleton (done : List Event) (e : Event) (family id : String) :
    lastRequest (done ++ [e]) family id =
      if pairEventTypes.lookup e.type = some (family, .request) ∧ e.id = id then some e
      else lastRequest done family id := by
  unfold lastRequest
  rw [List.reverse_append, List.reverse_singleton, List.singleton_append, List.find?_cons]
  by_cases h : pairEventTypes.lookup e.type = some (family, .request) ∧ e.id = id
  · simp [h]
  · rw [if_neg h, decide_eq_false h]

theorem mem_of_lastRequest {events : List Event} {family id : String} {e : Event}
    (h : lastRequest events family id = some e) :
    e ∈ events ∧ pairEventTypes.lookup e.type = some (family, .request) ∧ e.id = id := by
  have hfound := List.find?_some h
  have hmem := List.mem_of_find?_eq_some h
  exact ⟨List.mem_reverse.mp hmem, by simpa using hfound⟩

theorem lastRequest_isSome {events : List Event} {family : String} {e : Event} (he : e ∈ events)
    (htype : pairEventTypes.lookup e.type = some (family, .request)) :
    (lastRequest events family e.id).isSome := by
  unfold lastRequest
  rw [List.find?_isSome]
  exact ⟨e, List.mem_reverse.mpr he, by simpa using htype⟩

/-- The entry of a request is its key. -/
theorem requestKeys_lookup (done : List Event) (family id : String) :
    ((grouping done).requestKeys.lookup (family, id)).map RequestKey.key =
      (lastRequest done family id).bind (fun request => pairKey request family .request) := by
  induction done using List.reverseRecOn with
  | nil => rfl
  | append_singleton done e ih =>
      rw [grouping_append_singleton, lastRequest_append_singleton]
      rcases lookup_requestKeys_step (grouping done) e done.length family id with
        ⟨htype, hid, entry, hentry, hkey⟩ | ⟨hother, hold⟩
      · rw [if_pos ⟨htype, hid⟩, hentry]
        exact hkey.symm
      · rw [if_neg hother, hold]
        exact ih

theorem keyOf_grouping (done : List Event) (e : Event) (family : String) (role : PairRole) :
    (grouping done).keyOf e family role = filedKey done e family role := by
  have hentry := requestKeys_lookup done family (e.causationId.getD "")
  unfold Grouping.keyOf filedKey
  cases role with
  | request => rfl
  | response =>
      cases hlast : lastRequest done family (e.causationId.getD "") with
      | none =>
          rw [hlast, Option.bind_none, Option.map_eq_none_iff] at hentry
          rw [hentry]
      | some request =>
          obtain ⟨key, hkey⟩ := exists_pairKey_request request family
          rw [hlast, Option.bind_some, hkey, Option.map_eq_some_iff] at hentry
          obtain ⟨entry, hlookup, rfl⟩ := hentry
          rw [hlookup]
          exact hkey.symm

theorem filed_append_singleton {done : List Event} {e : Event} {key : PairKey} {role : PairRole} {i : ℕ} :
    Filed (done ++ [e]) key role i ↔ Filed done key role i ∨ i = done.length ∧ ∃ family,
      pairEventTypes.lookup e.type = some (family, role) ∧ filedKey done e family role = some key := by
  unfold Filed
  rcases lt_trichotomy i done.length with hlt | rfl | hgt
  · rw [List.getElem?_append_left hlt, List.take_append_of_le_length hlt.le]
    refine ⟨.inl, ?_⟩
    rintro (h | ⟨rfl, _⟩)
    · exact h
    · exact (lt_irrefl _ hlt).elim
  · rw [List.getElem?_concat_length, List.take_left]
    constructor
    · rintro ⟨e', family, he, htype, hkey⟩
      obtain rfl := Option.some.inj he
      exact .inr ⟨rfl, family, htype, hkey⟩
    · rintro (⟨e', family, he, _⟩ | ⟨_, family, htype, hkey⟩)
      · rw [List.getElem?_eq_none (le_refl _)] at he
        cases he
      · exact ⟨e, family, rfl, htype, hkey⟩
  · constructor
    · rintro ⟨e', family, he, _⟩
      rw [List.getElem?_eq_none (by rw [List.length_append, List.length_singleton]; omega)] at he
      cases he
    · rintro (⟨e', family, he, _⟩ | ⟨rfl, _⟩)
      · rw [List.getElem?_eq_none hgt.le] at he
        cases he
      · exact (lt_irrefl _ hgt).elim

/-- A group holds the events with its key. -/
theorem mem_indices_iff (events : List Event) (key : PairKey) (role : PairRole) (i : ℕ) :
    (∃ group, (grouping events).groups.lookup key = some group ∧ i ∈ group.indices role) ↔
      Filed events key role i := by
  induction events using List.reverseRecOn with
  | nil => simp [grouping, Filed]
  | append_singleton done e ih =>
      rw [grouping_append_singleton, filed_append_singleton, ← ih]
      exact Grouping.mem_indices_step (keyOf_grouping done e) key role i

/-! ### Pairs of listed types -/

/-- The family of a kind in the table of types. -/
def PairKind.family : PairKind → String
  | .tool => "tool"
  | .peer => "peer"
  | .approval => "approval"
  | .artifactRepair => "artifact_repair"

theorem lookup_requestType {kind : PairKind} (h : kind ≠ .peer) :
    pairEventTypes.lookup kind.requestType = some (kind.family, .request) := by
  cases kind with
  | peer => exact (h rfl).elim
  | tool => rfl
  | approval => rfl
  | artifactRepair => rfl

theorem lookup_responseType {kind : PairKind} (h : kind ≠ .peer) {type : String}
    (htype : type ∈ kind.responseTypes) :
    pairEventTypes.lookup type = some (kind.family, .response) := by
  cases kind with
  | peer => exact (h rfl).elim
  | tool =>
      simp only [PairKind.responseTypes, List.mem_cons, List.not_mem_nil, or_false] at htype
      rcases htype with rfl | rfl <;> rfl
  | approval =>
      simp only [PairKind.responseTypes, List.mem_cons, List.not_mem_nil, or_false] at htype
      rcases htype with rfl | rfl | rfl <;> rfl
  | artifactRepair =>
      simp only [PairKind.responseTypes, List.mem_cons, List.not_mem_nil, or_false] at htype
      rcases htype with rfl | rfl <;> rfl

/-- A listed family has requests of one type. -/
theorem requestType_of_lookup {kind : PairKind} (h : kind ≠ .peer) {type : String}
    (htype : pairEventTypes.lookup type = some (kind.family, .request)) : type = kind.requestType := by
  have hmem : (type, kind.family, PairRole.request) ∈ pairEventTypes := by
    obtain ⟨l₁, l₂, hsplit, -⟩ := List.lookup_eq_some_iff.mp htype
    rw [hsplit]
    simp
  cases kind with
  | peer => exact (h rfl).elim
  | tool => simpa [pairEventTypes, PairKind.family, PairKind.requestType] using hmem
  | approval => simpa [pairEventTypes, PairKind.family, PairKind.requestType] using hmem
  | artifactRepair => simpa [pairEventTypes, PairKind.family, PairKind.requestType] using hmem

theorem correlation?_of_kind {kind : PairKind} (h : kind ≠ .peer) {e : Event} {v : Json}
    (hv : kind.correlation? e = some v) : e.correlation? = some v := by
  cases kind with
  | peer => exact (h rfl).elim
  | tool =>
      unfold PairKind.correlation? at hv
      simp [Event.correlation?, correlationFields, hv]
  | approval => exact hv
  | artifactRepair => exact hv

theorem pairKey_of_correlation {e : Event} {v : Json} (h : e.correlation? = some v) (family : String)
    (role : PairRole) : pairKey e family role = some (family, v.pyStr) := by
  simp [pairKey, h]

/-- The two events of a pair of listed types, the request first, are in one group. -/
theorem grouped {events : List Event} {kind : PairKind} {i j : ℕ} (hkind : kind ≠ .peer)
    (h : RecordedPair events kind i j) (hij : i < j) :
    ∃ g ∈ (grouping events).groups.rows, i ∈ g.request ∧ j ∈ g.response := by
  obtain ⟨request, response, hi, hj, hrequest, hresponse, hanswers⟩ := h
  have hrequestType : pairEventTypes.lookup request.type = some (kind.family, .request) := by
    rw [hrequest]
    exact lookup_requestType hkind
  have hresponseType := lookup_responseType hkind hresponse
  -- Both have one key.
  obtain ⟨key, hrequestKey, hresponseKey⟩ : ∃ key, pairKey request kind.family .request = some key ∧
      filedKey (events.take j) response kind.family .response = some key := by
    rcases hanswers with ⟨hcause, hunique⟩ | ⟨⟨v, hv, hv'⟩, hother⟩
    · have hseen : request ∈ events.take j := by
        refine List.mem_of_getElem? (i := i) ?_
        rw [List.getElem?_take_of_lt hij]
        exact hi
      obtain ⟨e, hlast⟩ := Option.isSome_iff_exists.mp (lastRequest_isSome hseen hrequestType)
      obtain ⟨he, _, hid⟩ := mem_of_lastRequest hlast
      obtain ⟨k, hk⟩ := List.mem_iff_getElem?.mp (List.mem_of_mem_take he)
      obtain rfl := hunique k e hk hid
      obtain rfl := Option.some.inj (hi.symm.trans hk)
      obtain ⟨key, hkey⟩ := exists_pairKey_request request kind.family
      refine ⟨key, hkey, ?_⟩
      simp [filedKey, hcause, hlast, hkey]
    · refine ⟨_, pairKey_of_correlation (correlation?_of_kind hkind hv) _ _, ?_⟩
      cases hlast : lastRequest (events.take j) kind.family (response.causationId.getD "") with
      | some e =>
          obtain ⟨he, htype, hid⟩ := mem_of_lastRequest hlast
          exact (hother e (List.mem_of_mem_take he) (requestType_of_lookup hkind htype) hid).elim
      | none =>
          unfold filedKey
          rw [hlast]
          exact pairKey_of_correlation (correlation?_of_kind hkind hv') _ _
  obtain ⟨g, hg, hmem⟩ :=
    (mem_indices_iff events key .request i).mpr ⟨request, _, hi, hrequestType, hrequestKey⟩
  obtain ⟨g', hg', hmem'⟩ :=
    (mem_indices_iff events key .response j).mpr ⟨response, _, hj, hresponseType, hresponseKey⟩
  obtain rfl := Option.some.inj (hg.symm.trans hg')
  exact ⟨g, Table.mem_of_lookup hg, hmem, hmem'⟩

/-! ### Selections -/

/-- What a selection promises. -/
structure SafeSelection (events : List Event) (requestedCount : ℕ) (s : SafePrefixSelection) : Prop where
  split : s.prefixEvents ++ s.suffixEvents = events
  le : s.prefixEvents.length ≤ requestedCount
  unsplit : ∀ g ∈ (grouping events).groups.rows, ¬ g.Splits s.prefixEvents.length
  greatest : ∀ c ≤ requestedCount, (∀ g ∈ (grouping events).groups.rows, ¬ g.Splits c) →
    c ≤ s.prefixEvents.length
  pairs : ∀ kind i j, RecordedPair events kind i j → i < s.prefixEvents.length → j < s.prefixEvents.length

/-- A group of the events is split by the cut. -/
def Spanned (events : List Event) (c : ℕ) : Prop := ∃ g ∈ (grouping events).groups.rows, g.Splits c

/-- A group is split where the events of its key lie on both sides of the cut. -/
theorem spanned_iff_crossed {events : List Event} {c : ℕ} : Spanned events c ↔ Crossed events c := by
  constructor
  · rintro ⟨g, hg, hsplits⟩
    have hlookup := Table.lookup_of_mem hg
    obtain ⟨first, hmin⟩ := hsplits.exists_first
    obtain ⟨hfirst, hend⟩ := (PairGroup.splits_iff hmin).mp hsplits
    have hfiled : ∀ role i, i ∈ g.indices role → Filed events g.key role i :=
      fun role i hi => (mem_indices_iff events g.key role i).mp ⟨g, hlookup, hi⟩
    refine ⟨g.key, first, hfirst, hfiled .request first (List.min?_eq_some_iff.mp hmin).1, ?_⟩
    rcases hend with hnone | ⟨i, hi, hle⟩
    · refine .inl (fun j hj => ?_)
      obtain ⟨group, hgroup, hmem⟩ := (mem_indices_iff events g.key .response j).mpr hj
      obtain rfl := Option.some.inj (hlookup.symm.trans hgroup)
      rw [PairGroup.indices, hnone] at hmem
      cases hmem
    · rcases List.mem_append.mp hi with hi | hi
      · exact .inr ⟨.request, i, hle, hfiled .request i hi⟩
      · exact .inr ⟨.response, i, hle, hfiled .response i hi⟩
  · rintro ⟨key, i, hi, hrequest, hend⟩
    obtain ⟨g, hg, hmem⟩ := (mem_indices_iff events key .request i).mpr hrequest
    obtain ⟨first, hmin⟩ : ∃ first, g.request.min? = some first := by
      refine Option.isSome_iff_exists.mp ?_
      rw [List.isSome_min?_iff]
      exact List.ne_nil_of_mem hmem
    have hfirst := (List.min?_eq_some_iff.mp hmin).2 i hmem
    refine ⟨g, Table.mem_of_lookup hg, (PairGroup.splits_iff hmin).mpr ⟨by omega, ?_⟩⟩
    rcases hend with hnone | ⟨role, j, hj, hfiled⟩
    · refine .inl (List.eq_nil_iff_forall_not_mem.mpr (fun j hj => hnone j ?_))
      exact (mem_indices_iff events key .response j).mp ⟨g, hg, hj⟩
    · obtain ⟨g', hg', hmem'⟩ := (mem_indices_iff events key role j).mpr hfiled
      obtain rfl := Option.some.inj (hg.symm.trans hg')
      refine .inr ⟨j, ?_, hj⟩
      cases role with
      | request => exact List.mem_append_left _ hmem'
      | response => exact List.mem_append_right _ hmem'

theorem selectSafePrefix_ok {events : List Event} {n : ℕ} (h : n ≤ events.length) :
    ∃ s, selectSafePrefix events n = .ok s ∧
      s.prefixEvents = events.take (settleCutoff (grouping events).groups.rows n) ∧
      s.suffixEvents = events.drop (settleCutoff (grouping events).groups.rows n) ∧
      s.prefixEvents.length = settleCutoff (grouping events).groups.rows n := by
  unfold selectSafePrefix
  rw [if_neg (by omega)]
  refine ⟨_, rfl, by rw [Int.toNat_natCast], by rw [Int.toNat_natCast], ?_⟩
  rw [Int.toNat_natCast]
  exact List.length_take_of_le ((settleCutoff_greatest _ n).1.trans h)

/-- A cut that splits no group keeps the pairs of listed types together. -/
theorem kept_of_unsplit {events : List Event} {kind : PairKind} {i j c : ℕ} (hkind : kind ≠ .peer)
    (hpair : RecordedPair events kind i j) (hc : ¬ Spanned events c) (hi : i < c) : j < c := by
  by_contra hj
  obtain ⟨g, hg, hmem, hmem'⟩ := grouped hkind hpair (by omega)
  obtain ⟨first, hmin⟩ : ∃ first, g.request.min? = some first := by
    refine Option.isSome_iff_exists.mp ?_
    rw [List.isSome_min?_iff]
    exact List.ne_nil_of_mem hmem
  have hfirst := (List.min?_eq_some_iff.mp hmin).2 i hmem
  refine hc ⟨g, hg, (PairGroup.splits_iff hmin).mpr ⟨by omega, .inr ⟨j, ?_, by omega⟩⟩⟩
  exact List.mem_append_right _ hmem'

/-- What is kept together at one count: the selection ends before each peer request or after its response. -/
theorem safeSelection_iff {events : List Event} {n : ℕ} (h : n ≤ events.length) :
    (∃ s, selectSafePrefix events n = .ok s ∧ SafeSelection events n s) ↔
      ∀ i j, RecordedPair events .peer i j → i < settleCutoff (grouping events).groups.rows n →
        j < settleCutoff (grouping events).groups.rows n := by
  obtain ⟨s, hs, hpre, hsuffix, hlength⟩ := selectSafePrefix_ok h
  obtain ⟨hle, hunsplit, hgreatest⟩ := settleCutoff_greatest (grouping events).groups.rows n
  rw [← hlength] at hle hunsplit hgreatest ⊢
  have hcut : ¬ Spanned events s.prefixEvents.length := by
    rintro ⟨g, hg, hsplits⟩
    exact hunsplit g hg hsplits
  constructor
  · rintro ⟨s', hs', hsafe⟩ i j hpair hi
    obtain rfl := Except.ok.inj (hs.symm.trans hs')
    exact hsafe.pairs .peer i j hpair hi
  · intro hpeers
    refine ⟨s, hs, ?_, hle, hunsplit, ?_, ?_⟩
    · rw [hpre, hsuffix, List.take_append_drop]
    · intro c hc hc'
      by_contra hlt
      obtain ⟨g, hg, hsplits⟩ := hgreatest c (by omega) hc
      exact hc' g hg hsplits
    · intro kind i j hpair hi
      by_cases hkind : kind = .peer
      · subst hkind
        exact hpeers i j hpair hi
      · exact kept_of_unsplit hkind hpair hcut hi

/-- A cut between a peer request and its response is crossed, or a later one up to the count is not. -/
def PeersCovered (events : List Event) (n : ℕ) : Prop :=
  ∀ i j c, RecordedPair events .peer i j → i < c → c ≤ j → c ≤ n →
    Crossed events c ∨ ∃ c', c < c' ∧ c' ≤ n ∧ ¬ Crossed events c'

/-- The selection ends at the last cut that nothing crosses. -/
theorem settleCutoff_eq_iff {events : List Event} {n c : ℕ} :
    settleCutoff (grouping events).groups.rows n = c ↔
      c ≤ n ∧ ¬ Crossed events c ∧ ∀ c', c < c' → c' ≤ n → Crossed events c' := by
  obtain ⟨hle, hunsplit, hgreatest⟩ := settleCutoff_greatest (grouping events).groups.rows n
  have hcut : ¬ Crossed events (settleCutoff (grouping events).groups.rows n) := by
    rw [← spanned_iff_crossed]
    rintro ⟨g, hg, hsplits⟩
    exact hunsplit g hg hsplits
  have hlast : ∀ c', settleCutoff (grouping events).groups.rows n < c' → c' ≤ n → Crossed events c' :=
    fun c' hlt hc' => spanned_iff_crossed.mp (hgreatest c' hlt hc')
  constructor
  · rintro rfl
    exact ⟨hle, hcut, hlast⟩
  · rintro ⟨hc, hfree, hafter⟩
    rcases lt_trichotomy (settleCutoff (grouping events).groups.rows n) c with hlt | heq | hgt
    · exact (hfree (hlast c hlt hc)).elim
    · exact heq
    · exact (hcut (hafter _ hgt hle)).elim

/-- At one count the promise is kept exactly where each cut between a peer request and its response is crossed
by events of listed types or followed by one that is not; and at every count exactly where all these cuts are
crossed. -/
theorem safePrefix_iff (events : List Event) :
    (∀ n ≤ events.length,
      ((∃ s, selectSafePrefix events n = .ok s ∧ SafeSelection events n s) ↔ PeersCovered events n)) ∧
    ((∀ n ≤ events.length, ∃ s, selectSafePrefix events n = .ok s ∧ SafeSelection events n s) ↔
      ∀ i j c, RecordedPair events .peer i j → i < c → c ≤ j → Crossed events c) := by
  have hone : ∀ n ≤ events.length,
      ((∃ s, selectSafePrefix events n = .ok s ∧ SafeSelection events n s) ↔ PeersCovered events n) := by
    intro n hn
    rw [safeSelection_iff hn]
    obtain ⟨hle, hfree, hafter⟩ := (@settleCutoff_eq_iff events n _).mp rfl
    constructor
    · intro hkept i j c hpair hi hj hc
      by_contra hbad
      obtain ⟨hc', hlast⟩ := not_or.mp hbad
      have hcut : settleCutoff (grouping events).groups.rows n = c := by
        refine settleCutoff_eq_iff.mpr ⟨hc, hc', ?_⟩
        intro c' hlt hle'
        by_contra hnot
        exact hlast ⟨c', hlt, hle', hnot⟩
      have hresponse := hkept i j hpair (by omega)
      omega
    · intro hcovered i j hpair hi
      by_contra hj
      rcases hcovered i j _ hpair hi (by omega) hle with hcrossed | ⟨c', hlt, hle', hnot⟩
      · exact hfree hcrossed
      · exact hnot (hafter c' hlt hle')
  refine ⟨hone, ?_, ?_⟩
  · intro hall i j c hpair hi hj
    have hlt : j < events.length := by
      obtain ⟨_, _, _, hresponse, _⟩ := hpair
      exact (List.getElem?_eq_some_iff.mp hresponse).1
    rcases (hone c (by omega)).mp (hall c (by omega)) i j c hpair hi hj (le_refl c) with hcrossed | hlater
    · exact hcrossed
    · obtain ⟨c', hlt', hle', _⟩ := hlater
      omega
  · intro hcrossed n hn
    exact (hone n hn).mpr (fun i j c hpair hi hj _ => .inl (hcrossed i j c hpair hi hj))

/-! ### A peer request without its response -/

/-- A peer request and its response, as the kernel records them. -/
def peerEvents : List Event :=
  [{ id := "request", runId := "run", taskId := "team", type := "a2a.peer.requested", source := "builder",
      payload := [("assignment_id", .str "build"), ("sender", .str "builder"),
        ("correlation_id", .str "candidate")],
      createdAt := ⟨0, some 0⟩ },
    { id := "response", runId := "run", taskId := "team", type := "a2a.peer.responded", source := "scout",
      payload := [("assignment_id", .str "build"), ("correlation_id", .str "candidate"),
        ("sender", .str "scout")],
      causationId := some "allowed", createdAt := ⟨0, some 0⟩ }]

theorem recordedPair_peerEvents : RecordedPair peerEvents .peer 0 1 := by
  refine ⟨_, _, rfl, rfl, rfl, List.mem_singleton.mpr rfl, .inr ⟨⟨.str "candidate", by decide, by decide⟩, ?_⟩⟩
  decide

theorem grouping_peerEvents : (grouping peerEvents).groups.rows = [] := rfl

theorem not_safePrefix :
    ¬ ∀ (events : List Event) (n : ℕ), n ≤ events.length →
      ∃ s, selectSafePrefix events n = .ok s ∧ SafeSelection events n s := by
  intro h
  obtain ⟨s, _, hsafe⟩ := h peerEvents 1 (by decide)
  have hone : s.prefixEvents.length = 1 := by
    refine le_antisymm hsafe.le (hsafe.greatest 1 (le_refl 1) ?_)
    rw [grouping_peerEvents]
    simp
  have hpair := hsafe.pairs .peer 0 1 recordedPair_peerEvents (by omega)
  omega

/-- The exchange within a tool call. -/
def peerEventsInTool : List Event :=
  { id := "call", runId := "run", taskId := "team", type := "tool.requested", source := "builder",
    payload := [("operation_id", .str "op")], createdAt := ⟨0, some 0⟩ } :: peerEvents ++
  [{ id := "result", runId := "run", taskId := "team", type := "tool.completed", source := "builder",
      payload := [("operation_id", .str "op")], createdAt := ⟨0, some 0⟩ }]

theorem peerRequest_in_tool : ∀ i, ∀ h : i < peerEventsInTool.length,
    peerEventsInTool[i].type = "a2a.peer.requested" → i = 1 := by
  decide

theorem peerResponse_in_tool : ∀ j, ∀ h : j < peerEventsInTool.length,
    peerEventsInTool[j].type = "a2a.peer.responded" → j = 2 := by
  decide

theorem crossed_peerEventsInTool : Crossed peerEventsInTool 2 :=
  ⟨("tool", "op"), 0, by decide, ⟨_, "tool", rfl, rfl, rfl⟩,
    .inr ⟨.response, 3, by decide, ⟨_, "tool", rfl, rfl, rfl⟩⟩⟩

/-- The tool call keeps the exchange together at every count. -/
theorem safePrefix_in_tool : ∀ n ≤ peerEventsInTool.length,
    ∃ s, selectSafePrefix peerEventsInTool n = .ok s ∧ SafeSelection peerEventsInTool n s := by
  refine (safePrefix_iff peerEventsInTool).2.mpr ?_
  rintro i j c ⟨request, response, hi, hj, hrequest, hresponse, _⟩ hic hcj
  obtain ⟨hilt, rfl⟩ := List.getElem?_eq_some_iff.mp hi
  obtain ⟨hjlt, rfl⟩ := List.getElem?_eq_some_iff.mp hj
  have hi' := peerRequest_in_tool i hilt hrequest
  have hj' := peerResponse_in_tool j hjlt (List.mem_singleton.mp hresponse)
  obtain rfl : c = 2 := by omega
  exact crossed_peerEventsInTool

end CrazyHarness
