import CrazyHarness.Lib.Json

/-! # Events and identifiers

The durable event of `core/events/schemas.py` and the two ways its identifier is made:
`uuid5` of a name under the URL namespace for facts that may be replayed, and a fresh
`uuid4` for everything else.  Identifiers only ever meet equality tests, so an identifier
is represented by what it is computed from: the name string of a `uuid5`, the position in
the stream of drawn numbers of a `uuid4`. -/

namespace CrazyHarness

open Lib

/-- `str(uuid5(NAMESPACE_URL, name))`. -/
def uuid5 (name : String) : String := "uuid5:" ++ name

/-- `str(uuid4())`, the `n`-th one drawn. -/
def uuid4 (n : ℕ) : String := "uuid4:" ++ toString n

theorem uuid5_injective : Function.Injective uuid5 := by
  intro a b h
  simpa [uuid5] using h

@[simp] theorem uuid5_inj {a b : String} : uuid5 a = uuid5 b ↔ a = b := uuid5_injective.eq_iff

/-- A durable event in a run trajectory. -/
structure Event where
  id : String
  runId : String
  taskId : String
  type : String
  source : String
  payload : Dict
  refs : List String := []
  causationId : Option String := none
  createdAt : DateTime
deriving DecidableEq

namespace Event

/-- `a.model_dump(exclude={"created_at"}) == b.model_dump(exclude={"created_at"})`. -/
def SameFact (a b : Event) : Prop := { a with createdAt := b.createdAt } = b

instance (a b : Event) : Decidable (SameFact a b) :=
  inferInstanceAs (Decidable ({ a with createdAt := b.createdAt } = b))

theorem SameFact.refl (a : Event) : a.SameFact a := rfl

/-- `event.payload.get(key)`. -/
def get? (e : Event) (key : String) : Option Json := e.payload.get? key

end Event

end CrazyHarness
