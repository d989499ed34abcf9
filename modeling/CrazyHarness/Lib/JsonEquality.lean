import CrazyHarness.Lib.Decode

/-! # Equality of JSON values

`Json.jsonEq` compares numbers by their value, texts by their characters and objects by their members in
any order, and it tells the truth values from the numbers; this is the one difference to Python's
equality, which is coarser (`pyEq_of_jsonEq`). -/

namespace Lib.Json

mutual

/-- The value with numbers, texts and objects in one spelling each, the truth values apart. -/
def jsonNormal : Json → Json
  | null => null
  | bool b => bool b
  | int n => float n ""
  | float q _ => float q ""
  | str s => str s
  | time d => str d.isoformat
  | list xs => list (jsonNormalList xs)
  | dict items => dict ((jsonNormalItems items).insertionSort (fun a b => a.1 ≤ b.1))

/-- The elements of an array. -/
def jsonNormalList : List Json → List Json
  | [] => []
  | x :: xs => jsonNormal x :: jsonNormalList xs

/-- The members of an object, in the order given. -/
def jsonNormalItems : List (String × Json) → List (String × Json)
  | [] => []
  | (k, x) :: xs => (k, jsonNormal x) :: jsonNormalItems xs

end

/-- Equality of JSON values. -/
def jsonEq (a b : Json) : Bool := decide (a.jsonNormal = b.jsonNormal)

theorem jsonEq_iff {a b : Json} : a.jsonEq b = true ↔ a.jsonNormal = b.jsonNormal := by
  simp [jsonEq]

theorem normalItems_eq_map (items : List (String × Json)) :
    normalItems items = items.map (fun kv => (kv.1, normal kv.2)) := by
  induction items with
  | nil => rfl
  | cons kv items ih => rw [normalItems, ih, List.map_cons]

instance : Std.Total (fun a b : String × Json => a.1 ≤ b.1) := ⟨fun a b => le_total a.1 b.1⟩

instance : IsTrans (String × Json) (fun a b => a.1 ≤ b.1) := ⟨fun _ _ _ => le_trans⟩

/-- The spelling of the values does not matter for the order of the members. -/
theorem sort_normalItems (items : List (String × Json)) :
    (normalItems (items.insertionSort (fun a b => a.1 ≤ b.1))).insertionSort (fun a b => a.1 ≤ b.1) =
      (normalItems items).insertionSort (fun a b => a.1 ≤ b.1) := by
  rw [normalItems_eq_map, normalItems_eq_map,
    List.map_insertionSort _ (fun a b : String × Json => a.1 ≤ b.1) _ items (fun _ _ _ _ => Iff.rfl)]
  exact (List.pairwise_insertionSort _ _).insertionSort_eq

mutual

theorem normal_jsonNormal : ∀ v : Json, v.jsonNormal.normal = v.normal
  | null => rfl
  | bool _ => rfl
  | int _ => rfl
  | float _ _ => rfl
  | str _ => rfl
  | time _ => rfl
  | list xs => by rw [jsonNormal, normal, normal, normalList_jsonNormalList xs]
  | dict items => by
      rw [jsonNormal, normal, normal, sort_normalItems, normalItems_jsonNormalItems items]

theorem normalList_jsonNormalList : ∀ xs : List Json, normalList (jsonNormalList xs) = normalList xs
  | [] => rfl
  | x :: xs => by
      rw [jsonNormalList, normalList, normalList, normal_jsonNormal x, normalList_jsonNormalList xs]

theorem normalItems_jsonNormalItems : ∀ items : List (String × Json),
    normalItems (jsonNormalItems items) = normalItems items
  | [] => rfl
  | (k, x) :: items => by
      rw [jsonNormalItems, normalItems, normalItems, normal_jsonNormal x,
        normalItems_jsonNormalItems items]

end

/-- Equal JSON values are equal for Python. -/
theorem pyEq_of_jsonEq {a b : Json} (h : a.jsonEq b = true) : a.pyEq b = true := by
  rw [pyEq_iff, ← normal_jsonNormal a, ← normal_jsonNormal b, jsonEq_iff.mp h]

end Lib.Json
