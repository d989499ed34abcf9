import CrazyHarness.Lib.Except
import CrazyHarness.Lib.JsonEquality
import CrazyHarness.Tools.Pipeline

/-! # Validation of arguments

`validate_tool_args` as a recursive function over the value, with the path of every error, and what a
schema demands of a value.

`Governs` leads from a value and a schema to the parts of the value and the schemas for them, and `Meets`
is what one schema demands of one value under a notion of equality.  `validateValue_ok_iff` says that the
validator decides this under Python's equality, and `decides_iff` when that is JSON's. -/

namespace CrazyHarness

open Lib

/-! ### The validator -/

/-- Python raises where a schema is not built as it should be; no code reads the text. -/
def raisedTypeError {α : Type} : Except PipelineError α := .error (.raised "TypeError")

/-- `value in container`. -/
def pyIn (value : Json) : Json → Except PipelineError Bool
  | .list xs => .ok (xs.any (fun x => value.pyEq x))
  | .dict items =>
      match value with
      | .list _ | .dict _ => raisedTypeError
      | value => .ok (items.any (fun kv => value.pyEq (.str kv.1)))
  | container =>
      match container.asStr, value.asStr with
      | some text, some part => .ok (decide (part.toList <:+: text.toList))
      | _, _ => raisedTypeError

/-- `list(value)`, also what a loop over the value goes through. -/
def pyList : Json → Except PipelineError (List Json)
  | .list xs => .ok xs
  | .dict items => .ok (items.map (fun kv => .str kv.1))
  | value =>
      match value.asStr with
      | some text => .ok (text.toList.map (fun c => .str (String.singleton c)))
      | none => raisedTypeError

/-- The number a value is in a comparison. -/
def pyNumber : Json → Option ℚ
  | .bool b => some (if b then 1 else 0)
  | .int n => some n
  | .float q _ => some q
  | _ => none

/-- The types that `_matches_json_type` knows. -/
inductive JsonType where
  | object
  | array
  | string
  | integer
  | number
  | boolean
  | null
deriving DecidableEq

/-- The name of a type. -/
def JsonType.name : JsonType → String
  | .object => "object"
  | .array => "array"
  | .string => "string"
  | .integer => "integer"
  | .number => "number"
  | .boolean => "boolean"
  | .null => "null"

def JsonType.all : List JsonType := [.object, .array, .string, .integer, .number, .boolean, .null]

/-- Whether a value is of a type; an integer is a number that is written without a fraction. -/
def HasType : Json → JsonType → Bool
  | .dict _, .object | .list _, .array | .str _, .string | .time _, .string | .int _, .integer
  | .int _, .number | .float _ _, .number | .bool _, .boolean | .null, .null => true
  | _, _ => false

/-- `_matches_json_type`. -/
def matchesJsonType (value expected : Json) : Except PipelineError Bool :=
  match expected with
  | .list _ | .dict _ => raisedTypeError
  | expected =>
      match JsonType.all.find? (fun type => expected.asStr = some type.name) with
      | some type => .ok (HasType value type)
      | none => .error (.validation ("unsupported JSON schema type: " ++ expected.pyRepr))

/-- `any(_matches_json_type(value, choice) for choice in choices)`. -/
def matchesAny (value : Json) : List Json → Except PipelineError Bool
  | [] => .ok false
  | choice :: choices => do
      if ← matchesJsonType value choice then return true
      else matchesAny value choices

/-- The check of `enum`. -/
def checkEnum (s : Dict) (value : Json) (path : String) : Except PipelineError Unit :=
  match s.get? "enum" with
  | none => .ok ()
  | some members => do
      let found ← pyIn value members
      ensure found (.validation (path ++ " must be one of " ++ members.pyRepr))

/-- The check of `const`. -/
def checkConst (s : Dict) (value : Json) (path : String) : Except PipelineError Unit :=
  match s.get? "const" with
  | none => .ok ()
  | some constant => ensure (value.pyEq constant) (.validation (path ++ " must equal " ++ constant.pyRepr))

/-- The check of `type`. -/
def checkType (s : Dict) (value : Json) (path : String) : Except PipelineError Unit :=
  match s.getD "type" .null with
  | .null => .ok ()
  | expected => do
      let choices ← if expected.asStr.isSome then .ok [expected] else pyList expected
      let found ← matchesAny value choices
      ensure found (.validation (path ++ " must have JSON type " ++
        " or ".intercalate (choices.filterMap Json.asStr)))

/-- `[key for key in required if key not in value]`. -/
def missingKeys (items : Dict) : List Json → Except PipelineError (List Json)
  | [] => .ok []
  | key :: keys => do
      let found ← pyIn key (.dict items)
      let missing ← missingKeys items keys
      return if found then missing else key :: missing

/-- The check of `required`. -/
def checkRequired (s items : Dict) (path : String) : Except PipelineError Unit := do
  let required ← pyList (s.getD "required" (.list []))
  let missing ← missingKeys items required
  ensure (missing = []) (.validation (path ++ " is missing required properties: " ++
    (Json.list missing).pyRepr))

/-- The schema for a member of an object. -/
def childSchema (s : Dict) (key path : String) : Except PipelineError Json :=
  match s.getD "properties" (.dict []) with
  | .dict properties =>
      match Dict.get? properties key with
      | none | some .null =>
          match s.getD "additionalProperties" (.bool true) with
          | .bool false => .error (.validation (path ++ "." ++ key ++ " is not an allowed property"))
          | .dict additional => .ok (.dict additional)
          | _ => .ok (.dict [])
      | some child => .ok child
  | _ => raisedTypeError

/-- `a < b`, of a number and a value of a schema. -/
def pyLess (a : ℚ) (b : Json) : Except PipelineError Bool :=
  match pyNumber b with
  | some q => .ok (decide (a < q))
  | none => raisedTypeError

/-- `a > b`. -/
def pyGreater (a : ℚ) (b : Json) : Except PipelineError Bool :=
  match pyNumber b with
  | some q => .ok (decide (q < a))
  | none => raisedTypeError

/-- `re.search(pattern, text) is not None`. -/
abbrev PatternSearch := Json → String → Except PipelineError Bool

/-- One of the checks of a text or a number against a bound, where the schema has it. -/
def checkBound (s : Dict) (key : String) (violates : Json → Except PipelineError Bool)
    (message : String) : Except PipelineError Unit :=
  match s.get? key with
  | none => .ok ()
  | some bound => do
      let violated ← violates bound
      ensure (¬ violated) (.validation message)

/-- The checks of a text. -/
def checkText (search : PatternSearch) (s : Dict) (text path : String) : Except PipelineError Unit := do
  checkBound s "minLength" (pyLess text.length) (path ++ " is shorter than minLength")
  checkBound s "maxLength" (pyGreater text.length) (path ++ " is longer than maxLength")
  checkBound s "pattern" (fun pattern => do return !(← search pattern text))
    (path ++ " does not match the required pattern")

/-- The checks of a number. -/
def checkNumber (s : Dict) (q : ℚ) (path : String) : Except PipelineError Unit := do
  checkBound s "minimum" (pyLess q) (path ++ " is below minimum")
  checkBound s "maximum" (pyGreater q) (path ++ " is above maximum")

/-- The checks that are made of every value. -/
def checkAny (s : Dict) (value : Json) (path : String) : Except PipelineError Unit := do
  checkEnum s value path
  checkConst s value path
  checkType s value path

mutual

/-- `_validate_value`. -/
def validateValue (search : PatternSearch) (value schema : Json) (path : String) :
    Except PipelineError Unit :=
  if ¬ schema.truthy then .ok ()
  else
    match schema.asDict with
    | none => raisedTypeError
    | some s =>
        match value with
        | .dict items => do
            checkAny s (.dict items) path
            checkRequired s items path
            validateMembers search items s path
        | .list xs => do
            checkAny s (.list xs) path
            match (s.getD "items" .null).asDict with
            | some child => validateElements search xs (.dict child) 0 path
            | none => return ()
        | .str text => do
            checkAny s (.str text) path
            checkText search s text path
        | .time d => do
            checkAny s (.time d) path
            checkText search s d.isoformat path
        | .int n => do
            checkAny s (.int n) path
            checkNumber s n path
        | .float q text => do
            checkAny s (.float q text) path
            checkNumber s q path
        | value => checkAny s value path

/-- The loop over the members of an object. -/
def validateMembers (search : PatternSearch) :
    List (String × Json) → Dict → String → Except PipelineError Unit
  | [], _, _ => .ok ()
  | (key, item) :: items, s, path => do
      let child ← childSchema s key path
      validateValue search item child (path ++ "." ++ key)
      validateMembers search items s path

/-- The loop over the elements of an array. -/
def validateElements (search : PatternSearch) :
    List Json → Json → ℕ → String → Except PipelineError Unit
  | [], _, _, _ => .ok ()
  | item :: items, child, index, path => do
      validateValue search item child (path ++ "[" ++ toString index ++ "]")
      validateElements search items child (index + 1) path

end

/-- `validate_tool_args`. -/
def validateToolArgs (search : PatternSearch) (args schema : Json) : Except PipelineError Unit :=
  validateValue search args (if schema.truthy then schema else .dict []) "args"

example : validateToolArgs (fun _ _ => .ok true) (.dict [("n", .int 1)])
    (.dict [("properties", .dict [("n", .dict [("type", .str "string")])])]) =
    .error (.validation "args.n must have JSON type string") := by decide +kernel

/-! ### What a schema demands -/

/-- The number a JSON value is. -/
def jsonNumber : Json → Option ℚ
  | .int n => some n
  | .float q _ => some q
  | _ => none

/-- A `type` names this type, alone or in a list. -/
def Names (t : Json) (type : JsonType) : Prop :=
  t = .str type.name ∨ ∃ ts, t = .list ts ∧ .str type.name ∈ ts

/-- The schema for the members of this name: the one of the property, or the one of all others. -/
def ChildOf (s : Dict) (key : String) (c : Dict) : Prop :=
  (∃ ps, s.get? "properties" = some (.dict ps) ∧ Dict.get? ps key = some (.dict c)) ∨
    (∀ ps, s.get? "properties" = some (.dict ps) → Dict.get? ps key = none) ∧
      s.get? "additionalProperties" = some (.dict c)

/-- A schema of the subset. -/
inductive SchemaOk : Dict → Prop
  | mk {s : Dict}
      (type : ∀ t, s.get? "type" = some t → (∃ type : JsonType, t = .str type.name) ∨
        ∃ types : List JsonType, t = .list (types.map (fun type => .str type.name)))
      (enum : ∀ v, s.get? "enum" = some v → ∃ members, v = .list members)
      (required : ∀ v, s.get? "required" = some v → ∃ keys : List String, v = .list (keys.map .str))
      (properties : ∀ v, s.get? "properties" = some v → ∃ ps : Dict, v = .dict ps ∧
        ∀ key child, Dict.get? ps key = some child → ∃ c, child = .dict c)
      (additional : ∀ v, s.get? "additionalProperties" = some v →
        (∃ b, v = .bool b) ∨ ∃ c, v = .dict c)
      (items : ∀ v, s.get? "items" = some v → ∃ c, v = .dict c)
      (lengths : ∀ key ∈ ["minLength", "maxLength"], ∀ v, s.get? key = some v → ∃ n, v = .int n)
      (bounds : ∀ key ∈ ["minimum", "maximum"], ∀ v, s.get? key = some v → (jsonNumber v).isSome)
      (pattern : s.get? "pattern" = none)
      (child : ∀ key c, ChildOf s key c → SchemaOk c)
      (element : ∀ c, s.get? "items" = some (.dict c) → SchemaOk c) : SchemaOk s

/-- The parts of a value, each with the schema for it. -/
inductive Governs : Json → Dict → Json → Dict → Prop
  | here {v : Json} {s : Dict} : Governs v s v s
  | member {items s c s' : Dict} {key : String} {item v' : Json} (hmember : (key, item) ∈ items)
      (hchild : ChildOf s key c) (rest : Governs item c v' s') : Governs (.dict items) s v' s'
  | element {xs : List Json} {s c s' : Dict} {x v' : Json} (hmember : x ∈ xs)
      (hchild : s.get? "items" = some (.dict c)) (rest : Governs x c v' s') : Governs (.list xs) s v' s'

/-- The schema has a place for members of this name. -/
def HasPlace (s : Dict) (key : String) : Prop :=
  s.get? "additionalProperties" = some (.bool false) →
    ∃ ps child, s.get? "properties" = some (.dict ps) ∧ Dict.get? ps key = some child

/-- What a schema demands of a value itself. -/
structure Meets (eq : Json → Json → Bool) (v : Json) (s : Dict) : Prop where
  enum : ∀ members, s.get? "enum" = some (.list members) → ∃ m ∈ members, eq v m
  const : ∀ c, s.get? "const" = some c → eq v c
  type : ∀ t, s.get? "type" = some t → ∃ type, Names t type ∧ HasType v type
  required : ∀ items, v = .dict items → ∀ keys, s.get? "required" = some (.list keys) →
    ∀ key, .str key ∈ keys → key ∈ items.map Prod.fst
  allowed : ∀ items, v = .dict items → ∀ key ∈ items.map Prod.fst, HasPlace s key
  minLength : ∀ text n, v.asStr = some text → s.get? "minLength" = some (.int n) → n ≤ text.length
  maxLength : ∀ text n, v.asStr = some text → s.get? "maxLength" = some (.int n) → text.length ≤ n
  minimum : ∀ q bound m, jsonNumber v = some q → s.get? "minimum" = some bound →
    jsonNumber bound = some m → m ≤ q
  maximum : ∀ q bound m, jsonNumber v = some q → s.get? "maximum" = some bound →
    jsonNumber bound = some m → q ≤ m

/-- **The value satisfies the schema**: all its parts meet the schemas for them, under JSON's equality. -/
def Satisfies (v : Json) (s : Dict) : Prop :=
  ∀ v' s', Governs v s v' s' → Meets Json.jsonEq v' s'

/-! ### The checks one by one -/

section checks

variable {s : Dict} {v : Json} {path : String}

theorem andThen_ok_iff {x y : Except PipelineError Unit} :
    (do x; y) = .ok () ↔ x = .ok () ∧ y = .ok () := by
  rw [bind_ok_iff]
  exact ⟨fun ⟨_, hx, hy⟩ => ⟨hx, hy⟩, fun ⟨hx, hy⟩ => ⟨(), hx, hy⟩⟩

theorem checkEnum_ok_iff (h : SchemaOk s) : checkEnum s v path = .ok () ↔
    ∀ members, s.get? "enum" = some (.list members) → ∃ m ∈ members, v.pyEq m := by
  obtain ⟨-, henum⟩ := h
  unfold checkEnum
  cases hget : s.get? "enum" with
  | none => simp
  | some found =>
      obtain ⟨members, rfl⟩ := henum found hget
      simp [pyIn]

theorem checkConst_ok_iff : checkConst s v path = .ok () ↔
    ∀ c, s.get? "const" = some c → v.pyEq c := by
  unfold checkConst
  cases s.get? "const" <;> simp

theorem matchesJsonType_name (type : JsonType) :
    matchesJsonType v (.str type.name) = .ok (HasType v type) := by
  cases type <;> rfl

theorem matchesAny_names (types : List JsonType) :
    matchesAny v (types.map (fun type => .str type.name)) =
      .ok (types.any (fun type => HasType v type)) := by
  induction types with
  | nil => rfl
  | cons type types ih =>
      rw [List.map_cons, matchesAny, matchesJsonType_name, ok_bind, ih, List.any_cons]
      cases HasType v type <;> rfl

theorem JsonType.name_injective : Function.Injective JsonType.name := by
  intro a b h
  revert h
  cases a <;> cases b <;> decide

theorem checkType_ok_iff (h : SchemaOk s) : checkType s v path = .ok () ↔
    ∀ t, s.get? "type" = some t → ∃ type, Names t type ∧ HasType v type := by
  obtain ⟨htype⟩ := h
  unfold checkType Dict.getD
  cases hget : s.get? "type" with
  | none => simp
  | some found =>
      rcases htype found hget with ⟨type, rfl⟩ | ⟨types, rfl⟩
      · have hany := matchesAny_names (v := v) [type]
        simp only [List.map_cons, List.map_nil] at hany
        simp [hany, Names, JsonType.name_injective.eq_iff]
      · have hany := matchesAny_names (v := v) types
        simp [pyList, hany, Names, JsonType.name_injective.eq_iff, Json.asStr]

/-- A key is in an object when a member has its name. -/
theorem pyIn_key (key : String) (items : Dict) :
    pyIn (.str key) (.dict items) = .ok (decide (key ∈ items.map Prod.fst)) := by
  have heq : ∀ l : String, (Json.str key).pyEq (.str l) = decide (l = key) := by
    intro l
    rw [Bool.eq_iff_iff, Json.pyEq_iff, decide_eq_true_iff]
    simp [Json.normal, eq_comm]
  show Except.ok (items.any (fun kv => (Json.str key).pyEq (.str kv.1))) = _
  refine congrArg Except.ok ?_
  rw [Bool.eq_iff_iff, decide_eq_true_iff, List.any_eq_true, List.mem_map]
  simp [heq]

theorem missingKeys_names (items : Dict) (keys : List String) : missingKeys items (keys.map .str) =
    .ok ((keys.filter (fun key => key ∉ items.map Prod.fst)).map .str) := by
  induction keys with
  | nil => rfl
  | cons key keys ih =>
      rw [List.map_cons, missingKeys, pyIn_key, ok_bind, ih, ok_bind, List.filter_cons]
      by_cases hkey : key ∈ items.map Prod.fst <;> simp [hkey]

theorem checkRequired_ok_iff (h : SchemaOk s) {items : Dict} : checkRequired s items path = .ok () ↔
    ∀ keys, s.get? "required" = some (.list keys) → ∀ key, .str key ∈ keys →
      key ∈ items.map Prod.fst := by
  obtain ⟨-, -, hrequired⟩ := h
  unfold checkRequired Dict.getD
  cases hget : s.get? "required" with
  | none => simp [pyList, missingKeys]
  | some found =>
      obtain ⟨keys, rfl⟩ := hrequired found hget
      simp only [Option.getD_some, pyList, ok_bind, missingKeys_names, ensure_ok_iff,
        List.map_eq_nil_iff, List.filter_eq_nil_iff, decide_eq_true_iff, not_not, Option.some.injEq,
        Json.list.injEq]
      constructor
      · rintro hall _ rfl key hkey
        obtain ⟨key', hkey', heq⟩ := List.mem_map.mp hkey
        rw [← Json.str.inj heq]
        exact hall key' hkey'
      · intro hall key hkey
        exact hall _ rfl key (List.mem_map_of_mem hkey)

theorem checkBound_ok_iff {key message : String} {violates : Json → Except PipelineError Bool} :
    checkBound s key violates message = .ok () ↔
      ∀ bound, s.get? key = some bound → violates bound = .ok false := by
  unfold checkBound
  cases s.get? key with
  | none => simp
  | some bound =>
      rw [bind_ok_iff]
      simp

theorem pyNumber_eq {v : Json} {q : ℚ} (h : jsonNumber v = some q) : pyNumber v = some q := by
  cases v <;> first | exact h | cases h

theorem checkText_ok_iff (search : PatternSearch) (h : SchemaOk s) {text : String} :
    checkText search s text path = .ok () ↔
      (∀ n, s.get? "minLength" = some (.int n) → n ≤ text.length) ∧
        ∀ n, s.get? "maxLength" = some (.int n) → text.length ≤ n := by
  obtain ⟨-, -, -, -, -, -, hlengths, -, hpattern⟩ := h
  unfold checkText
  simp only [andThen_ok_iff, checkBound_ok_iff, hpattern, reduceCtorEq, false_implies, implies_true,
    and_true]
  refine and_congr ?_ ?_
  · constructor
    · intro hall n hn
      have hle : (n : ℚ) ≤ text.length := by simpa [pyLess, pyNumber] using hall _ hn
      exact_mod_cast hle
    · intro hall bound hbound
      obtain ⟨n, rfl⟩ := hlengths "minLength" (by simp) bound hbound
      have hle : (n : ℚ) ≤ text.length := by exact_mod_cast hall n hbound
      simpa [pyLess, pyNumber] using hle
  · constructor
    · intro hall n hn
      have hle : (text.length : ℚ) ≤ n := by simpa [pyGreater, pyNumber] using hall _ hn
      exact_mod_cast hle
    · intro hall bound hbound
      obtain ⟨n, rfl⟩ := hlengths "maxLength" (by simp) bound hbound
      have hle : (text.length : ℚ) ≤ n := by exact_mod_cast hall n hbound
      simpa [pyGreater, pyNumber] using hle

theorem checkNumber_ok_iff (h : SchemaOk s) {q : ℚ} : checkNumber s q path = .ok () ↔
    (∀ bound m, s.get? "minimum" = some bound → jsonNumber bound = some m → m ≤ q) ∧
      ∀ bound m, s.get? "maximum" = some bound → jsonNumber bound = some m → q ≤ m := by
  obtain ⟨-, -, -, -, -, -, -, hbounds⟩ := h
  unfold checkNumber
  simp only [andThen_ok_iff, checkBound_ok_iff]
  refine and_congr ?_ ?_
  · constructor
    · intro hall bound m hbound hm
      have hless := hall bound hbound
      simpa [pyLess, pyNumber_eq hm] using hless
    · intro hall bound hbound
      obtain ⟨m, hm⟩ := Option.isSome_iff_exists.mp (hbounds "minimum" (by simp) bound hbound)
      have hle := hall bound m hbound hm
      simpa [pyLess, pyNumber_eq hm] using hle
  · constructor
    · intro hall bound m hbound hm
      have hless := hall bound hbound
      simpa [pyGreater, pyNumber_eq hm] using hless
    · intro hall bound hbound
      obtain ⟨m, hm⟩ := Option.isSome_iff_exists.mp (hbounds "maximum" (by simp) bound hbound)
      have hle := hall bound m hbound hm
      simpa [pyGreater, pyNumber_eq hm] using hle

theorem checkAny_ok_iff (h : SchemaOk s) : checkAny s v path = .ok () ↔
    (∀ members, s.get? "enum" = some (.list members) → ∃ m ∈ members, v.pyEq m) ∧
      (∀ c, s.get? "const" = some c → v.pyEq c) ∧
        ∀ t, s.get? "type" = some t → ∃ type, Names t type ∧ HasType v type := by
  unfold checkAny
  rw [andThen_ok_iff, andThen_ok_iff, checkEnum_ok_iff h, checkConst_ok_iff, checkType_ok_iff h]

end checks

/-! ### The whole validation -/

section validation

variable {s : Dict} {path : String}

theorem SchemaOk.child_ok (h : SchemaOk s) {key : String} {c : Dict} (hchild : ChildOf s key c) :
    SchemaOk c := by
  obtain ⟨-, -, -, -, -, -, -, -, -, hok⟩ := h
  exact hok key c hchild

theorem SchemaOk.element_ok (h : SchemaOk s) {c : Dict} (hitems : s.get? "items" = some (.dict c)) :
    SchemaOk c := by
  obtain ⟨-, -, -, -, -, -, -, -, -, -, hok⟩ := h
  exact hok c hitems

/-- What becomes of a member: it has a schema, or may be anything, or has no place. -/
theorem childSchema_cases (h : SchemaOk s) (key : String) :
    (∃ c, ChildOf s key c ∧ (∀ c', ChildOf s key c' → c' = c) ∧ HasPlace s key ∧
        childSchema s key path = .ok (.dict c)) ∨
      ((∀ c, ¬ ChildOf s key c) ∧ HasPlace s key ∧ childSchema s key path = .ok (.dict [])) ∨
      (¬ HasPlace s key ∧ ∃ e, childSchema s key path = .error e) := by
  obtain ⟨-, -, -, hproperties, hadditional⟩ := h
  -- Without a property of this name the schema of all others decides.
  have hother : (∀ ps, s.get? "properties" = some (.dict ps) → Dict.get? ps key = none) →
      childSchema s key path = (match s.getD "additionalProperties" (.bool true) with
        | .bool false => .error (.validation (path ++ "." ++ key ++ " is not an allowed property"))
        | .dict additional => .ok (.dict additional)
        | _ => .ok (.dict [])) →
      (∃ c, ChildOf s key c ∧ (∀ c', ChildOf s key c' → c' = c) ∧ HasPlace s key ∧
          childSchema s key path = .ok (.dict c)) ∨
        ((∀ c, ¬ ChildOf s key c) ∧ HasPlace s key ∧ childSchema s key path = .ok (.dict [])) ∨
        (¬ HasPlace s key ∧ ∃ e, childSchema s key path = .error e) := by
    intro hnone heq
    have hno : ∀ c, ¬ ∃ ps, s.get? "properties" = some (.dict ps) ∧ Dict.get? ps key = some (.dict c) := by
      rintro c ⟨ps, hps, hkey⟩
      rw [hnone ps hps] at hkey
      cases hkey
    rw [heq]
    unfold Dict.getD
    cases hget : s.get? "additionalProperties" with
    | none =>
        refine .inr (.inl ⟨?_, ?_, rfl⟩)
        · rintro c (hc | ⟨-, hc⟩)
          · exact hno c hc
          · rw [hget] at hc
            cases hc
        · intro hfalse
          rw [hget] at hfalse
          cases hfalse
    | some found =>
        rcases hadditional found hget with ⟨b, rfl⟩ | ⟨c, rfl⟩
        · cases b with
          | false =>
              refine .inr (.inr ⟨?_, _, rfl⟩)
              intro hallowed
              obtain ⟨ps, child, hps, hkey⟩ := hallowed hget
              rw [hnone ps hps] at hkey
              cases hkey
          | true =>
              refine .inr (.inl ⟨?_, ?_, rfl⟩)
              · rintro c (hc | ⟨-, hc⟩)
                · exact hno c hc
                · rw [hget] at hc
                  cases hc
              · intro hfalse
                rw [hget] at hfalse
                cases hfalse
        · refine .inl ⟨c, .inr ⟨hnone, hget⟩, ?_, ?_, rfl⟩
          · rintro c' (hc | ⟨-, hc⟩)
            · exact absurd hc (hno c')
            · rw [hget] at hc
              exact (Json.dict.inj (Option.some.inj hc)).symm
          · intro hfalse
            rw [hget] at hfalse
            cases hfalse
  cases hget : s.get? "properties" with
  | none =>
      refine hother (fun ps hps => by rw [hget] at hps; cases hps) ?_
      simp only [childSchema, Dict.getD, hget, Option.getD_none, Dict.get?_nil]
  | some found =>
      obtain ⟨ps, rfl, hdict⟩ := hproperties found hget
      cases hkey : Dict.get? ps key with
      | none =>
          refine hother ?_ ?_
          · intro ps' hps'
            rw [hget] at hps'
            rw [← Json.dict.inj (Option.some.inj hps'), hkey]
          · simp only [childSchema, Dict.getD, hget, Option.getD_some, hkey]
      | some child =>
          obtain ⟨c, rfl⟩ := hdict key child hkey
          refine .inl ⟨c, .inl ⟨ps, hget, hkey⟩, ?_, ?_, ?_⟩
          · rintro c' (⟨ps', hps', hc⟩ | ⟨hnone, -⟩)
            · rw [hget] at hps'
              rw [← Json.dict.inj (Option.some.inj hps'), hkey] at hc
              exact (Json.dict.inj (Option.some.inj hc)).symm
            · rw [hnone ps hget] at hkey
              cases hkey
          · exact fun _ => ⟨ps, .dict c, hget, hkey⟩
          · simp only [childSchema, Dict.getD, hget, Option.getD_some, hkey]

variable {P : Json → Dict → Prop}

theorem governs_dict {items : Dict} : (∀ v' s', Governs (.dict items) s v' s' → P v' s') ↔
    P (.dict items) s ∧ ∀ key item, (key, item) ∈ items → ∀ c, ChildOf s key c →
      ∀ v' s', Governs item c v' s' → P v' s' := by
  constructor
  · intro h
    exact ⟨h _ _ .here, fun key item hmember c hchild v' s' hrest => h _ _ (.member hmember hchild hrest)⟩
  · rintro ⟨hhere, hmembers⟩ v' s' h
    cases h with
    | here => exact hhere
    | member hmember hchild hrest => exact hmembers _ _ hmember _ hchild _ _ hrest

theorem governs_list {xs : List Json} : (∀ v' s', Governs (.list xs) s v' s' → P v' s') ↔
    P (.list xs) s ∧ ∀ c, s.get? "items" = some (.dict c) → ∀ x ∈ xs,
      ∀ v' s', Governs x c v' s' → P v' s' := by
  constructor
  · intro h
    exact ⟨h _ _ .here, fun c hchild x hmember v' s' hrest => h _ _ (.element hmember hchild hrest)⟩
  · rintro ⟨hhere, helements⟩ v' s' h
    cases h with
    | here => exact hhere
    | element hmember hchild hrest => exact helements _ hchild _ hmember _ _ hrest

/-- Nothing else has parts. -/
theorem governs_leaf {v : Json} (hdict : ∀ items, v ≠ .dict items) (hlist : ∀ xs, v ≠ .list xs) :
    (∀ v' s', Governs v s v' s' → P v' s') ↔ P v s := by
  constructor
  · intro h
    exact h _ _ .here
  · intro hhere v' s' h
    cases h with
    | here => exact hhere
    | member => exact absurd rfl (hdict _)
    | element => exact absurd rfl (hlist _)

/-- The empty schema demands nothing. -/
theorem governs_nil (eq : Json → Json → Bool) (v : Json) :
    ∀ v' s', Governs v [] v' s' → Meets eq v' s' := by
  intro v' s' h
  have hchild : ∀ key c, ¬ ChildOf [] key c := by
    rintro key c (⟨ps, hps, -⟩ | ⟨-, hc⟩)
    · cases hps
    · cases hc
  cases h with
  | here =>
      refine ⟨?_, ?_, ?_, ?_, ?_, ?_, ?_, ?_, ?_⟩ <;> simp [HasPlace]
  | member hmember h hrest => exact absurd h (hchild _ _)
  | element hmember h hrest => cases h

/-- The demands of a schema, by the kind of the value. -/
theorem meets_dict {items : Dict} : Meets Json.pyEq (.dict items) s ↔
    ((∀ members, s.get? "enum" = some (.list members) → ∃ m ∈ members, (Json.dict items).pyEq m) ∧
      (∀ c, s.get? "const" = some c → (Json.dict items).pyEq c) ∧
        ∀ t, s.get? "type" = some t → ∃ type, Names t type ∧ HasType (.dict items) type) ∧
      (∀ keys, s.get? "required" = some (.list keys) → ∀ key, .str key ∈ keys →
        key ∈ items.map Prod.fst) ∧
      ∀ key ∈ items.map Prod.fst, HasPlace s key := by
  constructor
  · intro h
    exact ⟨⟨h.enum, h.const, h.type⟩, h.required items rfl, h.allowed items rfl⟩
  · rintro ⟨⟨henum, hconst, htype⟩, hrequired, hallowed⟩
    refine ⟨henum, hconst, htype, ?_, ?_, ?_, ?_, ?_, ?_⟩
    · intro items' heq
      rw [← Json.dict.inj heq]
      exact hrequired
    · intro items' heq
      rw [← Json.dict.inj heq]
      exact hallowed
    all_goals
      intro _ _
      simp [Json.asStr, jsonNumber]

theorem meets_other {v : Json} (hdict : ∀ items, v ≠ .dict items) : Meets Json.pyEq v s ↔
    ((∀ members, s.get? "enum" = some (.list members) → ∃ m ∈ members, v.pyEq m) ∧
      (∀ c, s.get? "const" = some c → v.pyEq c) ∧
        ∀ t, s.get? "type" = some t → ∃ type, Names t type ∧ HasType v type) ∧
      (∀ text, v.asStr = some text → (∀ n, s.get? "minLength" = some (.int n) → n ≤ text.length) ∧
        ∀ n, s.get? "maxLength" = some (.int n) → text.length ≤ n) ∧
      ∀ q, jsonNumber v = some q →
        (∀ bound m, s.get? "minimum" = some bound → jsonNumber bound = some m → m ≤ q) ∧
          ∀ bound m, s.get? "maximum" = some bound → jsonNumber bound = some m → q ≤ m := by
  constructor
  · intro h
    exact ⟨⟨h.enum, h.const, h.type⟩,
      fun text htext => ⟨fun n => h.minLength text n htext, fun n => h.maxLength text n htext⟩,
      fun q hq => ⟨fun bound m => h.minimum q bound m hq, fun bound m => h.maximum q bound m hq⟩⟩
  · rintro ⟨⟨henum, hconst, htype⟩, htext, hnumber⟩
    exact ⟨henum, hconst, htype, fun items heq => absurd heq (hdict items),
      fun items heq => absurd heq (hdict items), fun text n h => (htext text h).1 n,
      fun text n h => (htext text h).2 n, fun q bound m h => (hnumber q h).1 bound m,
      fun q bound m h => (hnumber q h).2 bound m⟩

theorem forall_of_none {α : Type} {o : Option α} {A : α → Prop} (h : o = none) :
    (∀ a, o = some a → A a) ↔ True := by
  simp [h]

theorem forall_of_some {α : Type} {o : Option α} {a : α} {A : α → Prop} (h : o = some a) :
    (∀ b, o = some b → A b) ↔ A a := by
  simp [h]

/-- A value without parts. -/
theorem validateValue_leaf_ok_iff (search : PatternSearch) (h : SchemaOk s) {v : Json}
    (hdict : ∀ items, v ≠ .dict items) (hlist : ∀ xs, v ≠ .list xs) :
    validateValue search v (.dict s) path = .ok () ↔
      ∀ v' s', Governs v s v' s' → Meets Json.pyEq v' s' := by
  cases s with
  | nil =>
      refine iff_of_true ?_ (governs_nil _ v)
      unfold validateValue
      rfl
  | cons entry rest =>
      rw [governs_leaf hdict hlist, meets_other hdict, ← @checkAny_ok_iff _ _ path h]
      unfold validateValue
      rw [if_neg (by simp [Json.truthy])]
      cases v with
      | dict items => exact absurd rfl (hdict items)
      | list xs => exact absurd rfl (hlist xs)
      | str text =>
          dsimp only [Json.asDict]
          rw [andThen_ok_iff, checkText_ok_iff search h,
            forall_of_some (show (Json.str text).asStr = some text from rfl),
            forall_of_none (show jsonNumber (Json.str text) = none from rfl), and_true]
      | time d =>
          dsimp only [Json.asDict]
          rw [andThen_ok_iff, checkText_ok_iff search h,
            forall_of_some (show (Json.time d).asStr = some d.isoformat from rfl),
            forall_of_none (show jsonNumber (Json.time d) = none from rfl), and_true]
      | int n =>
          dsimp only [Json.asDict]
          rw [andThen_ok_iff, checkNumber_ok_iff h,
            forall_of_none (show (Json.int n).asStr = none from rfl),
            forall_of_some (show jsonNumber (Json.int n) = some (n : ℚ) from rfl), true_and]
      | float q text =>
          dsimp only [Json.asDict]
          rw [andThen_ok_iff, checkNumber_ok_iff h,
            forall_of_none (show (Json.float q text).asStr = none from rfl),
            forall_of_some (show jsonNumber (Json.float q text) = some q from rfl), true_and]
      | bool b =>
          rw [forall_of_none (show (Json.bool b).asStr = none from rfl),
            forall_of_none (show jsonNumber (Json.bool b) = none from rfl), and_true, and_true]
          rfl
      | null =>
          rw [forall_of_none (show Json.null.asStr = none from rfl),
            forall_of_none (show jsonNumber Json.null = none from rfl), and_true, and_true]
          rfl

/-- An object, from its members. -/
theorem validateValue_dict_ok_iff (search : PatternSearch) (h : SchemaOk s) {items : Dict}
    (hmembers : validateMembers search items s path = .ok () ↔
      ∀ key item, (key, item) ∈ items → HasPlace s key ∧ ∀ c, ChildOf s key c →
        ∀ v' s', Governs item c v' s' → Meets Json.pyEq v' s') :
    validateValue search (.dict items) (.dict s) path = .ok () ↔
      ∀ v' s', Governs (.dict items) s v' s' → Meets Json.pyEq v' s' := by
  cases s with
  | nil =>
      refine iff_of_true ?_ (governs_nil _ _)
      unfold validateValue
      rfl
  | cons entry rest =>
      have hchildren : validateMembers search items (entry :: rest) path = .ok () ↔
          (∀ key ∈ items.map Prod.fst, HasPlace (entry :: rest) key) ∧
            ∀ key item, (key, item) ∈ items → ∀ c, ChildOf (entry :: rest) key c →
              ∀ v' s', Governs item c v' s' → Meets Json.pyEq v' s' := by
        rw [hmembers]
        simp only [forall_and, List.forall_mem_map, Prod.forall]
      rw [governs_dict, meets_dict, ← @checkAny_ok_iff _ _ path h, ← @checkRequired_ok_iff _ path h,
        and_assoc, and_assoc, ← hchildren]
      unfold validateValue
      rw [if_neg (by simp [Json.truthy])]
      dsimp only [Json.asDict]
      rw [andThen_ok_iff, andThen_ok_iff]

/-- An array, from its elements. -/
theorem validateValue_list_ok_iff (search : PatternSearch) (h : SchemaOk s) {xs : List Json}
    (helements : ∀ c, SchemaOk c → (validateElements search xs (.dict c) 0 path = .ok () ↔
      ∀ x ∈ xs, ∀ v' s', Governs x c v' s' → Meets Json.pyEq v' s')) :
    validateValue search (.list xs) (.dict s) path = .ok () ↔
      ∀ v' s', Governs (.list xs) s v' s' → Meets Json.pyEq v' s' := by
  cases s with
  | nil =>
      refine iff_of_true ?_ (governs_nil _ _)
      unfold validateValue
      rfl
  | cons entry rest =>
      rw [governs_list, meets_other (by intro _ heq; cases heq), ← @checkAny_ok_iff _ _ path h]
      unfold validateValue
      rw [if_neg (by simp [Json.truthy])]
      dsimp only [Json.asDict]
      rw [andThen_ok_iff, and_assoc]
      refine and_congr_right (fun _ => ?_)
      unfold Dict.getD
      cases hitems : Dict.get? (entry :: rest) "items" with
      | none => simp [Json.asStr, jsonNumber]
      | some found =>
          obtain ⟨c, rfl⟩ : ∃ c, found = .dict c := by
            obtain ⟨-, -, -, -, -, hdict⟩ := h
            exact hdict found hitems
          simp only [Option.getD_some]
          rw [helements c (h.element_ok hitems)]
          simp [Json.asStr, jsonNumber]

mutual

/-- **What the validator decides**: all parts of the value meet the schemas for them, under Python's
equality. -/
theorem validateValue_ok_iff (search : PatternSearch) : ∀ (v : Json) (s : Dict) (path : String),
    SchemaOk s → (validateValue search v (.dict s) path = .ok () ↔
      ∀ v' s', Governs v s v' s' → Meets Json.pyEq v' s')
  | .dict items, s, path, h =>
      validateValue_dict_ok_iff search h (validateMembers_ok_iff search items s path h)
  | .list xs, s, path, h =>
      validateValue_list_ok_iff search h (fun c hc => validateElements_ok_iff search xs c 0 path hc)
  | .str _, _, _, h | .time _, _, _, h | .int _, _, _, h | .float _ _, _, _, h | .bool _, _, _, h
  | .null, _, _, h =>
      validateValue_leaf_ok_iff search h (fun _ heq => by cases heq) (fun _ heq => by cases heq)

theorem validateMembers_ok_iff (search : PatternSearch) : ∀ (items : List (String × Json)) (s : Dict)
    (path : String), SchemaOk s → (validateMembers search items s path = .ok () ↔
      ∀ key item, (key, item) ∈ items → HasPlace s key ∧ ∀ c, ChildOf s key c →
        ∀ v' s', Governs item c v' s' → Meets Json.pyEq v' s')
  | [], s, path, _ => by simp [validateMembers]
  | (key, item) :: items, s, path, h => by
      rw [validateMembers]
      have hrest := validateMembers_ok_iff search items s path h
      have hsplit : ∀ {Q : String → Json → Prop}, (∀ k i, (k, i) ∈ (key, item) :: items → Q k i) ↔
          Q key item ∧ ∀ k i, (k, i) ∈ items → Q k i := by
        intro Q
        simp only [List.mem_cons, Prod.mk.injEq, or_imp, and_imp, forall_and, forall_eq_apply_imp_iff,
          forall_eq]
      rw [hsplit, ← hrest]
      rcases childSchema_cases h key with ⟨c, hchild, hunique, hallowed, hok⟩ |
        ⟨hnone, hallowed, hok⟩ | ⟨hnot, e, herror⟩
      · rw [hok, ok_bind, andThen_ok_iff, validateValue_ok_iff search item c _ (h.child_ok hchild)]
        refine and_congr_left ?_
        intro _
        constructor
        · intro hmeets
          refine ⟨hallowed, ?_⟩
          intro c' hc'
          rw [hunique c' hc']
          exact hmeets
        · intro hmeets
          exact hmeets.2 c hchild
      · have hempty : validateValue search item (.dict []) (path ++ "." ++ key) = .ok () := by
          unfold validateValue
          rfl
        rw [hok, ok_bind, hempty, ok_bind]
        simp only [hallowed, true_and]
        exact (and_iff_right (fun c hc => absurd hc (hnone c))).symm
      · rw [herror, error_bind]
        simp [hnot]

theorem validateElements_ok_iff (search : PatternSearch) : ∀ (xs : List Json) (c : Dict) (index : ℕ)
    (path : String), SchemaOk c → (validateElements search xs (.dict c) index path = .ok () ↔
      ∀ x ∈ xs, ∀ v' s', Governs x c v' s' → Meets Json.pyEq v' s')
  | [], c, index, path, _ => by simp [validateElements]
  | x :: xs, c, index, path, h => by
      rw [validateElements, andThen_ok_iff, validateValue_ok_iff search x c _ h,
        validateElements_ok_iff search xs c (index + 1) path h, List.forall_mem_cons]

end

/-! ### Truth values and numbers -/

/-- Only Python finds the value among the members of the `enum`, or equal to the `const`. -/
def Confuses (v : Json) (s : Dict) : Prop :=
  (∃ members, s.get? "enum" = some (.list members) ∧ (∃ m ∈ members, v.pyEq m) ∧
      ∀ m ∈ members, ¬ v.jsonEq m) ∨
    ∃ c, s.get? "const" = some c ∧ v.pyEq c ∧ ¬ v.jsonEq c

theorem meets_jsonEq_iff {v : Json} :
    Meets Json.jsonEq v s ↔ Meets Json.pyEq v s ∧ ¬ Confuses v s := by
  constructor
  · intro h
    refine ⟨⟨?_, ?_, h.type, h.required, h.allowed, h.minLength, h.maxLength, h.minimum, h.maximum⟩, ?_⟩
    · intro members hmembers
      obtain ⟨m, hm, heq⟩ := h.enum members hmembers
      exact ⟨m, hm, Json.pyEq_of_jsonEq heq⟩
    · exact fun c hc => Json.pyEq_of_jsonEq (h.const c hc)
    · rintro (⟨members, hmembers, -, hnone⟩ | ⟨c, hc, -, hne⟩)
      · obtain ⟨m, hm, heq⟩ := h.enum members hmembers
        exact hnone m hm heq
      · exact hne (h.const c hc)
  · rintro ⟨h, hclear⟩
    refine ⟨?_, ?_, h.type, h.required, h.allowed, h.minLength, h.maxLength, h.minimum, h.maximum⟩
    · intro members hmembers
      by_contra hnone
      refine hclear (.inl ⟨members, hmembers, h.enum members hmembers, ?_⟩)
      exact fun m hm heq => hnone ⟨m, hm, heq⟩
    · intro c hc
      by_contra hne
      exact hclear (.inr ⟨c, hc, h.const c hc, hne⟩)

theorem validateToolArgs_ok_iff (search : PatternSearch) (v : Json) (h : SchemaOk s) :
    validateToolArgs search v (.dict s) = .ok () ↔
      ∀ v' s', Governs v s v' s' → Meets Json.pyEq v' s' := by
  unfold validateToolArgs
  split
  · exact validateValue_ok_iff search v s "args" h
  next hempty =>
    have hnil : s = [] := by simpa [Json.truthy] using hempty
    rw [hnil] at h ⊢
    exact validateValue_ok_iff search v [] "args" h

/-- **When the validator decides its schemas**: it takes no truth value for a number, or it rejects the
value for another part. -/
theorem decides_iff (search : PatternSearch) (v : Json) (h : SchemaOk s) :
    (validateToolArgs search v (.dict s) = .ok () ↔ Satisfies v s) ↔
      (∀ v' s', Governs v s v' s' → ¬ Confuses v' s') ∨
        ∃ v' s', Governs v s v' s' ∧ ¬ Meets Json.pyEq v' s' := by
  have hsatisfies : Satisfies v s ↔ (∀ v' s', Governs v s v' s' → Meets Json.pyEq v' s') ∧
      ∀ v' s', Governs v s v' s' → ¬ Confuses v' s' := by
    unfold Satisfies
    simp only [meets_jsonEq_iff, forall_and]
  rw [validateToolArgs_ok_iff search v h, hsatisfies]
  constructor
  · intro hiff
    by_cases hall : ∀ v' s', Governs v s v' s' → Meets Json.pyEq v' s'
    · exact .inl (hiff.mp hall).2
    · right
      push Not at hall
      exact hall
  · rintro (hclear | ⟨v', s', hgoverns, hnot⟩)
    · exact (and_iff_left hclear).symm
    · exact iff_of_false (fun hall => hnot (hall v' s' hgoverns))
        (fun hall => hnot (hall.1 v' s' hgoverns))

/-- A schema that admits the number one. -/
def oneOnly : Dict := [("enum", .list [.int 1])]

theorem oneOnly_ok : SchemaOk oneOnly := by
  have hchild : ∀ key c, ¬ ChildOf oneOnly key c := by
    rintro key c (⟨ps, hps, -⟩ | ⟨-, hc⟩)
    · cases hps
    · cases hc
  refine .mk ?_ ?_ ?_ ?_ ?_ ?_ ?_ ?_ rfl ?_ ?_
  · intro t ht
    cases ht
  · intro v hv
    exact ⟨[.int 1], (Option.some.inj hv).symm⟩
  · intro v hv
    cases hv
  · intro v hv
    cases hv
  · intro v hv
    cases hv
  · intro v hv
    cases hv
  · intro key hkey v hv
    rcases List.mem_pair.mp hkey with rfl | rfl <;> cases hv
  · intro key hkey v hv
    rcases List.mem_pair.mp hkey with rfl | rfl <;> cases hv
  · exact fun key c hc => absurd hc (hchild key c)
  · intro c hc
    cases hc

/-- It rejects the number two. -/
theorem oneOnly_two : ∃ search : PatternSearch,
    (validateToolArgs search (.int 2) (.dict oneOnly) = .ok () ↔ Satisfies (.int 2) oneOnly) := by
  refine ⟨fun _ _ => .ok true, (decides_iff _ (.int 2) oneOnly_ok).mpr (.inr ⟨_, _, .here, ?_⟩)⟩
  intro hmeets
  obtain ⟨m, hm, heq⟩ := hmeets.enum [.int 1] rfl
  obtain rfl := List.mem_singleton.mp hm
  revert heq
  decide +kernel

/-- The truth value passes for the number. -/
theorem oneOnly_true : ∃ search : PatternSearch, SchemaOk oneOnly ∧
    ¬ (validateToolArgs search (.bool true) (.dict oneOnly) = .ok () ↔
      Satisfies (.bool true) oneOnly) := by
  refine ⟨fun _ _ => .ok true, oneOnly_ok, ?_⟩
  intro hiff
  have haccepted : validateToolArgs (fun _ _ => .ok true) (.bool true) (.dict oneOnly) = .ok () := by
    decide +kernel
  obtain ⟨m, hm, heq⟩ := (hiff.mp haccepted _ _ .here).enum [.int 1] rfl
  obtain rfl := List.mem_singleton.mp hm
  revert heq
  decide +kernel

end validation

end CrazyHarness
