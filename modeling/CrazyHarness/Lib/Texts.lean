import Mathlib

/-! # Texts

Blanks and numerals as Python reads them: `strip` is `s.strip()`, `stripWhitespace` what pydantic trims, and
`intOfString` is `int(s)`, which reads the decimal digits of every script. -/

namespace Lib

/-- `c.isspace()`. -/
def isSpace (c : Char) : Bool :=
  c.toNat ∈ [9, 10, 11, 12, 13, 28, 29, 30, 31, 32, 0x85, 0xA0, 0x1680, 0x2028, 0x2029, 0x202F,
    0x205F, 0x3000] || (0x2000 ≤ c.toNat && c.toNat ≤ 0x200A)

/-- `s.strip()`. -/
def strip (s : String) : String :=
  String.ofList ((s.toList.dropWhile isSpace).reverse.dropWhile isSpace).reverse

/-- White space: what stands around a numeral and what pydantic trims.  Unlike `isspace` it leaves the
separators of ASCII out. -/
def isBlank (c : Char) : Bool :=
  c.toNat ∈ [9, 10, 11, 12, 13, 32] || (127 < c.toNat && isSpace c)

/-- The text under `strip_whitespace=True`. -/
def stripWhitespace (s : String) : String :=
  String.ofList ((s.toList.dropWhile isBlank).reverse.dropWhile isBlank).reverse

/-- Trimming the end leaves a trimmed beginning alone. -/
theorem dropWhile_rdropWhile {α : Type} {p : α → Bool} {xs : List α} (h : xs.dropWhile p = xs) :
    (xs.reverse.dropWhile p).reverse.dropWhile p = (xs.reverse.dropWhile p).reverse := by
  cases hrest : (xs.reverse.dropWhile p).reverse with
  | nil => rfl
  | cons x rest =>
      have hfront : (xs.reverse.dropWhile p).reverse <+: xs := by
        have hback := List.dropWhile_suffix p (l := xs.reverse)
        simpa using List.reverse_prefix.mpr hback
      obtain ⟨tail, htail⟩ := hfront
      rw [hrest, List.cons_append] at htail
      have hx : p x = false := by
        by_contra hp
        rw [Bool.not_eq_false] at hp
        rw [← htail, List.dropWhile_cons_of_pos hp] at h
        have hlen := congrArg List.length h
        have hle := (List.dropWhile_suffix p (l := rest ++ tail)).length_le
        rw [List.length_cons] at hlen
        omega
      rw [List.dropWhile_cons_of_neg (by simp [hx])]

theorem stripWhitespace_stripWhitespace (s : String) :
    stripWhitespace (stripWhitespace s) = stripWhitespace s := by
  unfold stripWhitespace
  simp only [String.toList_ofList]
  rw [dropWhile_rdropWhile (List.dropWhile_idempotent isBlank s.toList), List.reverse_reverse,
    List.dropWhile_idempotent]

/-- A sign, if there is one: whether it is a minus, and what follows. -/
def splitSign : List Char → Bool × List Char
  | '-' :: cs => (true, cs)
  | '+' :: cs => (false, cs)
  | cs => (false, cs)

/-! ### Integers -/

/-- Where the ten decimal digits of each script start. -/
def digitBlocks : List ℕ :=
  [0x30, 0x660, 0x6F0, 0x7C0, 0x966, 0x9E6, 0xA66, 0xAE6, 0xB66, 0xBE6, 0xC66, 0xCE6, 0xD66, 0xDE6,
    0xE50, 0xED0, 0xF20, 0x1040, 0x1090, 0x17E0, 0x1810, 0x1946, 0x19D0, 0x1A80, 0x1A90, 0x1B50,
    0x1BB0, 0x1C40, 0x1C50, 0xA620, 0xA8D0, 0xA900, 0xA9D0, 0xA9F0, 0xAA50, 0xABF0, 0xFF10, 0x104A0,
    0x10D30, 0x11066, 0x110F0, 0x11136, 0x111D0, 0x112F0, 0x11450, 0x114D0, 0x11650, 0x116C0, 0x11730,
    0x118E0, 0x11950, 0x11C50, 0x11D50, 0x11DA0, 0x16A60, 0x16AC0, 0x16B50, 0x1D7CE, 0x1D7D8, 0x1D7E2,
    0x1D7EC, 0x1D7F6, 0x1E140, 0x1E2F0, 0x1E950, 0x1FBF0]

/-- The value of a decimal digit. -/
def decimalDigit (c : Char) : Option ℕ :=
  (digitBlocks.find? (fun first => first ≤ c.toNat ∧ c.toNat < first + 10)).map (c.toNat - ·)

/-- The digits of a numeral; single underscores may stand between them. -/
def numeralDigits : List Char → Option (List ℕ)
  | [] => none
  | [c] => (decimalDigit c).map ([·])
  | c :: '_' :: cs => (decimalDigit c).bind (fun d => (numeralDigits cs).map (d :: ·))
  | c :: cs => (decimalDigit c).bind (fun d => (numeralDigits cs).map (d :: ·))

/-- A numeral with blanks around it: whether it is negative, and its digits. -/
def numeral (cs : List Char) : Option (Bool × List ℕ) :=
  let (negative, cs) := splitSign ((cs.dropWhile isBlank).reverse.dropWhile isBlank).reverse
  (numeralDigits cs).map (negative, ·)

/-- The number that a numeral spells. -/
def numeralValue (n : Bool × List ℕ) : ℤ :=
  let value : ℕ := n.2.foldl (fun value d => 10 * value + d) 0
  if n.1 then -(value : ℤ) else value

/-- `int(s)`; `none` is its `ValueError`, also for more digits than it converts. -/
def intOfString (s : String) : Option ℤ :=
  ((numeral s.toList).filter (fun n => n.2.length ≤ 4300)).map numeralValue

/-- `int(s)` without its limit to the digits. -/
def intOfText (cs : List Char) : Option ℤ := (numeral cs).map numeralValue

end Lib
