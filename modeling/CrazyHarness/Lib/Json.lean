import Mathlib
import CrazyHarness.Lib.DateTime
import CrazyHarness.Lib.Texts

/-! # JSON values and dictionaries

`Json` is what a payload column can hold: the values a program reads back after it has
written them as JSON.  A dictionary is the list of its items in insertion order.

* A timestamp is stored as its ISO text; `Json.time` is such a text, kept as the
  `DateTime` it parses to, so reading it back is `asTime` and no parser is involved.
* `Dict.get?`, `Dict.set`, `Dict.update` are `d.get(k)`, `d[k] = v`, `d.update(e)`, and
  `get?_update` is the only fact about them that proofs need. -/

namespace Lib

/-- A JSON value; a float carries the text Python prints for it. -/
inductive Json where
  | null
  | bool (b : Bool)
  | int (n : ℤ)
  | float (value : ℚ) (text : String)
  | str (s : String)
  | time (d : DateTime)
  | list (xs : List Json)
  | dict (items : List (String × Json))

/-- The items of a dictionary, in insertion order. -/
abbrev Dict := List (String × Json)

namespace Json

instance : Inhabited Json := ⟨null⟩

/-! ### Equality -/

mutual

/-- Equality of two values, by recursion on the first. -/
def beq : Json → Json → Bool
  | null, null => true
  | bool a, bool b => a == b
  | int a, int b => a == b
  | float a s, float b t => a == b && s == t
  | str a, str b => a == b
  | time a, time b => a == b
  | list xs, list ys => beqList xs ys
  | dict xs, dict ys => beqItems xs ys
  | _, _ => false

/-- Equality of two lists of values. -/
def beqList : List Json → List Json → Bool
  | [], [] => true
  | x :: xs, y :: ys => beq x y && beqList xs ys
  | _, _ => false

/-- Equality of the items of two dictionaries. -/
def beqItems : List (String × Json) → List (String × Json) → Bool
  | [], [] => true
  | (k, x) :: xs, (l, y) :: ys => k == l && beq x y && beqItems xs ys
  | _, _ => false

end

mutual

theorem beq_iff : ∀ a b : Json, beq a b = true ↔ a = b
  | null, b => by cases b <;> simp [beq]
  | bool _, b => by cases b <;> simp [beq]
  | int _, b => by cases b <;> simp [beq]
  | float _ _, b => by cases b <;> simp [beq]
  | str _, b => by cases b <;> simp [beq]
  | time _, b => by cases b <;> simp [beq]
  | list xs, b => by cases b <;> simp [beq, beqList_iff xs]
  | dict xs, b => by cases b <;> simp [beq, beqItems_iff xs]

theorem beqList_iff : ∀ xs ys : List Json, beqList xs ys = true ↔ xs = ys
  | [], ys => by cases ys <;> simp [beqList]
  | x :: xs, ys => by cases ys <;> simp [beqList, beq_iff x, beqList_iff xs]

theorem beqItems_iff : ∀ xs ys : List (String × Json), beqItems xs ys = true ↔ xs = ys
  | [], ys => by cases ys <;> simp [beqItems]
  | (k, x) :: xs, ys => by
      cases ys <;> simp [beqItems, beq_iff x, beqItems_iff xs, Prod.ext_iff]

end

instance : DecidableEq Json := fun a b => decidable_of_iff _ (beq_iff a b)

instance lawfulBEqOption : LawfulBEq (Option Json) := inferInstance

/-! ### Reading a value -/

/-- The text of a JSON string; a timestamp is the string that spells it. -/
def asStr : Json → Option String
  | str s => some s
  | time d => some d.isoformat
  | _ => none

/-- A text that spells no time is a string. -/
theorem eq_str_of_asStr {v : Json} {s : String} (h : v.asStr = some s) (hs : 'T' ∉ s.toList) :
    v = .str s := by
  cases v with
  | str t => rw [Option.some.inj h]
  | time d => exact absurd (Option.some.inj h) (d.isoformat_ne hs)
  | _ => cases h

/-- The integer a value is, if it is one. -/
def asInt : Json → Option ℤ
  | int n => some n
  | _ => none

/-- `datetime.fromisoformat(str(value))`; `none` is its `ValueError`. -/
def asTime : Json → Option DateTime
  | time d => some d
  | _ => none

/-- The elements of a list value. -/
def asList : Json → Option (List Json)
  | list xs => some xs
  | _ => none

/-- The items of a dictionary value. -/
def asDict : Json → Option Dict
  | dict items => some items
  | _ => none

/-- Python's truth value: `None`, `False`, zero and everything empty are false. -/
def truthy : Json → Bool
  | null => false
  | bool b => b
  | int n => n != 0
  | float q _ => q != 0
  | str s => s != ""
  | time _ => true
  | list xs => !xs.isEmpty
  | dict items => !items.isEmpty

/-- An optional string, `None` when there is none. -/
def ofOption : Option String → Json
  | some s => str s
  | none => null

/-! ### Python's conversions -/

/-- A character as `repr` prints it inside the quotes `q`. -/
def reprChar (q c : Char) : List Char :=
  if c = q ∨ c = '\\' then ['\\', c]
  else if c = '\n' then ['\\', 'n']
  else if c = '\r' then ['\\', 'r']
  else if c = '\t' then ['\\', 't']
  else [c]

/-- `repr` of a string: single quotes unless only these occur in it. -/
def reprStr (s : String) : String :=
  let q := if s.toList.contains '\'' && !s.toList.contains '"' then '"' else '\''
  String.ofList ([q] ++ s.toList.flatMap (reprChar q) ++ [q])

mutual

/-- `repr(value)`. -/
def pyRepr : Json → String
  | null => "None"
  | bool true => "True"
  | bool false => "False"
  | int n => toString n
  | float _ text => text
  | str s => reprStr s
  | time d => reprStr d.isoformat
  | list xs => "[" ++ ", ".intercalate (pyReprList xs) ++ "]"
  | dict items => "\x7b" ++ ", ".intercalate (pyReprItems items) ++ "\x7d"

/-- `repr` of the elements of a list. -/
def pyReprList : List Json → List String
  | [] => []
  | x :: xs => pyRepr x :: pyReprList xs

/-- `repr` of the items of a dictionary. -/
def pyReprItems : List (String × Json) → List String
  | [] => []
  | (k, x) :: xs => (reprStr k ++ ": " ++ pyRepr x) :: pyReprItems xs

end

mutual

/-- The value with the items of every dictionary sorted by key (`sort_keys=True`). -/
def canonical : Json → Json
  | list xs => list (canonicalList xs)
  | dict items => dict ((canonicalItems items).insertionSort (fun a b => a.1 ≤ b.1))
  | v => v

/-- The canonical elements of a list. -/
def canonicalList : List Json → List Json
  | [] => []
  | x :: xs => canonical x :: canonicalList xs

/-- The canonical items of a dictionary, in the order given. -/
def canonicalItems : List (String × Json) → List (String × Json)
  | [] => []
  | (k, x) :: xs => (k, canonical x) :: canonicalItems xs

end

/-- `str(value)`. -/
def pyStr : Json → String
  | str s => s
  | time d => d.isoformat
  | v => pyRepr v

/-- `int(value)`; `none` is its `TypeError` or `ValueError`. -/
def pyInt : Json → Option ℤ
  | int n => some n
  | bool b => some (if b then 1 else 0)
  | float q _ => some (if q < 0 then -⌊-q⌋ else ⌊q⌋)
  | str s => intOfString s
  | _ => none

@[simp] theorem pyStr_str (s : String) : (str s).pyStr = s := rfl
@[simp] theorem pyInt_int (n : ℤ) : (int n).pyInt = some n := rfl

@[simp] theorem asStr_str (s : String) : (str s).asStr = some s := rfl
@[simp] theorem asInt_int (n : ℤ) : (int n).asInt = some n := rfl
@[simp] theorem asTime_time (d : DateTime) : (time d).asTime = some d := rfl
@[simp] theorem asList_list (xs : List Json) : (list xs).asList = some xs := rfl
@[simp] theorem asDict_dict (items : Dict) : (dict items).asDict = some items := rfl

end Json

/-! ### Dictionaries -/

namespace Dict

/-- `d.get(k)`. -/
def get? (d : Dict) (k : String) : Option Json := d.lookup k

/-- `d.get(k, default)`. -/
def getD (d : Dict) (k : String) (default : Json) : Json := (get? d k).getD default

/-- `d.update(e)`, also `{**d, **e}`: the items of `e` win, new keys go to the end. -/
def update (d e : Dict) : Dict :=
  d.map (fun kv => (kv.1, (get? e kv.1).getD kv.2)) ++ e.filter (fun kv => (get? d kv.1).isNone)

/-- `d[k] = v`. -/
def set (d : Dict) (k : String) (v : Json) : Dict := update d [(k, v)]

/-- `d.setdefault(k, v)`. -/
def setDefault (d : Dict) (k : String) (v : Json) : Dict :=
  if (get? d k).isSome then d else set d k v

@[simp] theorem get?_nil (k : String) : get? [] k = none := rfl

@[simp] theorem get?_cons_self (k : String) (v : Json) (d : Dict) :
    get? ((k, v) :: d) k = some v := by simp [get?]

theorem get?_cons (k l : String) (v : Json) (d : Dict) :
    get? ((l, v) :: d) k = if k = l then some v else get? d k := by
  by_cases h : k = l
  · simp [get?, h]
  · have hb : (k == l) = false := by simp [h]
    simp [get?, List.lookup, h, hb]

theorem get?_append (d e : Dict) (k : String) : get? (d ++ e) k = (get? d k).or (get? e k) := by
  induction d with
  | nil => rfl
  | cons kv d ih =>
      obtain ⟨l, v⟩ := kv
      rw [List.cons_append, get?_cons, get?_cons, ih]
      by_cases h : k = l <;> simp [h]

theorem get?_map_values (f : String → Json → Json) (d : Dict) (k : String) :
    get? (d.map (fun kv => (kv.1, f kv.1 kv.2))) k = (get? d k).map (f k) := by
  induction d with
  | nil => rfl
  | cons kv d ih =>
      obtain ⟨l, v⟩ := kv
      rw [List.map_cons, get?_cons, get?_cons, ih]
      by_cases h : k = l <;> simp [h]

theorem get?_filter_keys (p : String → Bool) (d : Dict) (k : String) :
    get? (d.filter (fun kv => p kv.1)) k = if p k then get? d k else none := by
  induction d with
  | nil => simp
  | cons kv d ih =>
      obtain ⟨l, v⟩ := kv
      rw [List.filter_cons]
      by_cases hl : p l
      · rw [if_pos hl, get?_cons, get?_cons, ih]
        by_cases h : k = l
        · simp [h, hl]
        · simp [h]
      · rw [if_neg hl, get?_cons, ih]
        by_cases h : k = l
        · simp [h, hl]
        · simp [h]

/-- An update reads as the new items first and the old ones where these are silent. -/
@[simp] theorem get?_update (d e : Dict) (k : String) :
    get? (update d e) k = (get? e k).or (get? d k) := by
  unfold update
  rw [get?_append, get?_map_values (fun l v => (get? e l).getD v),
    get?_filter_keys (fun l => (get? d l).isNone)]
  cases hd : get? d k <;> cases he : get? e k <;> simp

theorem get?_set (d : Dict) (k l : String) (v : Json) :
    get? (set d k v) l = if l = k then some v else get? d l := by
  rw [set, get?_update, get?_cons]
  by_cases h : l = k <;> simp [h]

@[simp] theorem get?_set_self (d : Dict) (k : String) (v : Json) : get? (set d k v) k = some v := by
  simp [get?_set]

theorem get?_set_ne (d : Dict) {k l : String} (v : Json) (h : l ≠ k) :
    get? (set d k v) l = get? d l := by
  simp [get?_set, h]

theorem get?_setDefault (d : Dict) (k l : String) (v : Json) :
    get? (setDefault d k v) l = if l = k then (get? d k).or (some v) else get? d l := by
  unfold setDefault
  cases hd : get? d k with
  | none => simp [get?_set]
  | some w => by_cases h : l = k <;> simp [h, hd]

end Dict

end Lib
