import CrazyHarness.Lib.Json

/-! # Records from JSON

What a validation library does with a JSON value that is to become a record: a decoder is a
function `Json → Option α`, where `none` is its validation error, and the fields of a record are
read from a dictionary one after the other.  Numbers and truth values are read in the lax mode, which
accepts other spellings of them; a text is only ever read from a text.

`Json.pyEq` is equality of values as Python sees it: `1`, `1.0` and `True` are equal, and the items
of a dictionary have no order. -/

namespace Lib

/-! ### Numerals -/

/-- The number that decimal digits spell. -/
def digitsValue (cs : List Char) : ℕ := cs.foldl (fun n c => 10 * n + (c.toNat - '0'.toNat)) 0

/-- The exponent after the digits of a number. -/
def exponentOf : List Char → Option ℤ
  | [] => some 0
  | c :: cs =>
      let (negative, digits) := splitSign cs
      if (c = 'e' ∨ c = 'E') ∧ digits ≠ [] ∧ digits.all Char.isDigit then
        some (if negative then -(digitsValue digits : ℤ) else digitsValue digits)
      else none

/-- The number a decimal numeral spells, such as `-1.5e3`. -/
def decimalOf (s : String) : Option ℚ :=
  let (negative, cs) := splitSign s.toList
  let whole := cs.takeWhile Char.isDigit
  let (fraction, rest) :=
    match cs.dropWhile Char.isDigit with
    | '.' :: cs => (cs.takeWhile Char.isDigit, cs.dropWhile Char.isDigit)
    | cs => ([], cs)
  if whole = [] ∧ fraction = [] then none
  else
    (exponentOf rest).map (fun exponent =>
      let value : ℚ := digitsValue (whole ++ fraction) * (10 : ℚ) ^ (exponent - (fraction.length : ℤ) : ℤ)
      if negative then -value else value)

/-! ### Python's equality -/

namespace Json

mutual

/-- The value with numbers, texts and dictionaries in one spelling each. -/
def normal : Json → Json
  | null => null
  | bool b => float (if b then 1 else 0) ""
  | int n => float n ""
  | float q _ => float q ""
  | str s => str s
  | time d => str d.isoformat
  | list xs => list (normalList xs)
  | dict items => dict ((normalItems items).insertionSort (fun a b => a.1 ≤ b.1))

/-- The elements of a list, normalised. -/
def normalList : List Json → List Json
  | [] => []
  | x :: xs => normal x :: normalList xs

/-- The items of a dictionary, normalised, in the order given. -/
def normalItems : List (String × Json) → List (String × Json)
  | [] => []
  | (k, x) :: xs => (k, normal x) :: normalItems xs

end

/-- `a == b`. -/
def pyEq (a b : Json) : Bool := decide (a.normal = b.normal)

theorem pyEq_iff {a b : Json} : a.pyEq b = true ↔ a.normal = b.normal := by
  simp [pyEq]

@[simp] theorem pyEq_self (a : Json) : a.pyEq a = true := by simp [pyEq]

@[simp] theorem pyEq_str (s t : String) : (str s).pyEq (str t) = decide (s = t) := by
  simp [pyEq, normal]

/-! ### Values of the basic types -/

/-- An `int` field. -/
def laxInt : Json → Option ℤ
  | int n => some n
  | bool b => some (if b then 1 else 0)
  | float q _ => if q.den = 1 then some q.num else none
  | str s => (stripWhitespace s).toInt?
  | _ => none

/-- A `bool` field. -/
def laxBool : Json → Option Bool
  | bool b => some b
  | int 0 => some false
  | int 1 => some true
  | float q _ => if q = 0 then some false else if q = 1 then some true else none
  | str s =>
      if s.toLower ∈ ["1", "on", "t", "true", "y", "yes"] then some true
      else if s.toLower ∈ ["0", "off", "f", "false", "n", "no"] then some false
      else none
  | _ => none

/-- A `float` field, as the float it becomes. -/
def laxFloat : Json → Option Json
  | float q text => some (float q text)
  | int n => some (float n (toString n ++ ".0"))
  | bool b => some (if b then float 1 "1.0" else float 0 "0.0")
  | str s => (decimalOf (stripWhitespace s)).map (fun q => float q (stripWhitespace s))
  | _ => none

/-- The number a float is. -/
def toRat : Json → ℚ
  | float q _ => q
  | _ => 0

/-- A text that is not empty. -/
def nonEmpty (v : Json) : Option String := v.asStr.bind (fun s => if s = "" then none else some s)

/-- A text without blanks around it that is not empty. -/
def nonEmptyText (v : Json) : Option String :=
  v.asStr.bind (fun s => if stripWhitespace s = "" then none else some (stripWhitespace s))

/-- An `int` field with a lower and maybe an upper bound. -/
def boundedInt (ge : ℤ) (le : Option ℤ) (v : Json) : Option ℤ :=
  v.laxInt.bind (fun n => if ge ≤ n ∧ (∀ m ∈ le, n ≤ m) then some n else none)

/-- A field that may be `None`. -/
def nullable {α : Type} (dec : Json → Option α) : Json → Option (Option α)
  | null => some none
  | v => (dec v).map some

/-- A tuple or list of values of one type. -/
def listOf {α : Type} (dec : Json → Option α) : Json → Option (List α)
  | list xs => xs.mapM dec
  | _ => none

theorem listOf_map {α : Type} {dec : Json → Option α} {enc : α → Json}
    (h : ∀ a, dec (enc a) = some a) (xs : List α) : listOf dec (list (xs.map enc)) = some xs := by
  show (xs.map enc).mapM dec = some xs
  induction xs with
  | nil => rfl
  | cons x xs ih => rw [List.map_cons, List.mapM_cons, h x, ih]; rfl

/-- A field for a natural number. -/
def natural (v : Json) : Option ℕ := (v.boundedInt 0 none).map Int.toNat

@[simp] theorem natural_int (n : ℕ) : natural (int n) = some n := by
  simp [natural, boundedInt, laxInt]

/-- A field for a positive number. -/
def positive (v : Json) : Option ℕ+ :=
  v.natural.bind (fun n => if h : 0 < n then some ⟨n, h⟩ else none)

@[simp] theorem positive_int (n : ℕ+) : positive (int (n : ℕ)) = some n := by
  simp [positive]
  rfl

/-- A text that may be `None`. -/
@[simp] theorem nullable_ofOption (text : Option String) :
    nullable asStr (ofOption text) = some text := by
  cases text <;> rfl

/-- A `frozenset[str]`. -/
def textSet (v : Json) : Option (Finset String) := (v.listOf asStr).map List.toFinset

instance stringLe_isTrans : IsTrans String (· ≤ ·) := inferInstance

instance stringLe_antisymm : Std.Antisymm (fun s t : String => s ≤ t) := inferInstance

/-- A set of texts as a list; the order is fixed to be the order of the texts. -/
def ofTextSet (s : Finset String) : Json := list ((s.sort (· ≤ ·)).map str)

/-- A list of texts. -/
def ofTexts (xs : List String) : Json := list (xs.map str)

end Json

/-! ### Texts with bounds -/

/-- A text whose length has a lower and maybe an upper bound. -/
abbrev SizedString (lo : ℕ) (hi : Option ℕ) :=
  { s : String // lo ≤ s.length ∧ ∀ m ∈ hi, s.length ≤ m }

namespace SizedString

variable {lo : ℕ} {hi : Option ℕ}

/-- The text, if it keeps the bounds. -/
def ofString (lo : ℕ) (hi : Option ℕ) (s : String) : Option (SizedString lo hi) :=
  if h : lo ≤ s.length ∧ ∀ m ∈ hi, s.length ≤ m then some ⟨s, h⟩ else none

@[simp] theorem ofString_val (s : SizedString lo hi) : ofString lo hi s.1 = some s := dif_pos s.2

/-- A field with `min_length` and `max_length`. -/
def validate (lo : ℕ) (hi : Option ℕ) (v : Json) : Option (SizedString lo hi) :=
  v.asStr.bind (ofString lo hi)

@[simp] theorem validate_str (s : SizedString lo hi) : validate lo hi (.str s.1) = some s := by
  simp [validate]

end SizedString

/-! ### Fields of a record -/

namespace Dict

variable {α : Type}

/-- A field that must be there. -/
def field (d : Dict) (key : String) (dec : Json → Option α) : Option α := (d.get? key).bind dec

/-- A field with a default. -/
def fieldD (d : Dict) (key : String) (dec : Json → Option α) (default : α) : Option α :=
  match d.get? key with
  | none => some default
  | some v => dec v

section reading

variable {β : Type} {d : Dict} {key : String} {dec : Json → Option α} {v : Json} {a : α}
  {f : α → Option β} {b : Option β}

/-- Reading one field, then the others. -/
theorem bind_field (hget : d.get? key = some v) (hdec : dec v = some a) (hf : f a = b) :
    (d.field key dec >>= f) = b := by
  rw [field, hget, Option.bind_some, hdec]
  exact hf

theorem bind_fieldD {default : α} (hget : d.get? key = some v) (hdec : dec v = some a)
    (hf : f a = b) : (d.fieldD key dec default >>= f) = b := by
  rw [fieldD, hget]
  show (dec v >>= f) = b
  rw [hdec]
  exact hf

end reading

/-- `extra="forbid"`. -/
def onlyFields (d : Dict) (keys : List String) : Option Unit :=
  if d.all (fun kv => kv.1 ∈ keys) then some () else none

end Dict

end Lib
