import Mathlib

/-! # Timestamps

A `DateTime` is a Python `datetime`: a point on the time line in microseconds, with the
offset of the zone it is written in, or without one (a naive value, which Python refuses
to order against an aware one).  Two values are the same text exactly when both fields
agree, so equality of the structure is equality of the stored column. -/

namespace Lib

/-- A timestamp: microseconds since 1970-01-01T00:00 UTC (of the local clock when naive),
and the zone's offset in seconds. -/
structure DateTime where
  instant : ℤ
  utcOffset : Option ℤ
deriving DecidableEq

namespace DateTime

/-- `d.tzinfo is not None`. -/
def Aware (d : DateTime) : Prop := d.utcOffset.isSome

instance : DecidablePred Aware := fun d => inferInstanceAs (Decidable (d.utcOffset.isSome = true))

/-- `d + timedelta(seconds=n)`. -/
def addSeconds (d : DateTime) (n : ℤ) : DateTime := { d with instant := d.instant + n * 1000000 }

@[simp] theorem addSeconds_instant (d : DateTime) (n : ℤ) :
    (d.addSeconds n).instant = d.instant + n * 1000000 := rfl

@[simp] theorem addSeconds_aware (d : DateTime) (n : ℤ) : (d.addSeconds n).Aware ↔ d.Aware := Iff.rfl

/-! ### The text form -/

/-- Year, month and day of a day count from 1970-01-01, in the Gregorian calendar.  The
count is taken in eras of 400 years that begin on the first of March. -/
def civil (days : ℤ) : ℤ × ℤ × ℤ :=
  let z := days + 719468
  let era := z / 146097
  let doe := z % 146097
  let yoe := (doe - doe / 1460 + doe / 36524 - doe / 146096) / 365
  let doy := doe - (365 * yoe + yoe / 4 - yoe / 100)
  let mp := (5 * doy + 2) / 153
  let day := doy - (153 * mp + 2) / 5 + 1
  let month := if mp < 10 then mp + 3 else mp - 9
  (yoe + era * 400 + (if month ≤ 2 then 1 else 0), month, day)

/-- A number in decimal, padded with zeros on the left. -/
def pad (width : ℕ) (n : ℤ) : String :=
  let digits := toString n.toNat
  String.ofList (List.replicate (width - digits.length) '0') ++ digits

/-- The offset as `isoformat` prints it. -/
def offsetText (seconds : ℤ) : String :=
  let magnitude := |seconds|
  let rest := magnitude % 60
  (if seconds < 0 then "-" else "+") ++ pad 2 (magnitude / 3600) ++ ":" ++
    pad 2 (magnitude / 60 % 60) ++ (if rest = 0 then "" else ":" ++ pad 2 rest)

/-- `d.isoformat()`; the microseconds are left out when they are zero. -/
def isoformat (d : DateTime) : String :=
  let local_ := d.instant + d.utcOffset.getD 0 * 1000000
  let micro := local_ % 1000000
  let seconds := local_ / 1000000
  let ofDay := seconds % 86400
  let (year, month, day) := civil (seconds / 86400)
  pad 4 year ++ "-" ++ pad 2 month ++ "-" ++ pad 2 day ++ "T" ++
    pad 2 (ofDay / 3600) ++ ":" ++ pad 2 (ofDay / 60 % 60) ++ ":" ++ pad 2 (ofDay % 60) ++
    (if micro = 0 then "" else "." ++ pad 6 micro) ++
    (d.utcOffset.map offsetText).getD ""

/-- The date and the time of day are apart by a letter, which other texts may lack. -/
theorem isoformat_ne (d : DateTime) {s : String} (h : 'T' ∉ s.toList) : d.isoformat ≠ s := by
  rintro rfl
  refine h ?_
  unfold isoformat
  simp only [String.toList_append, List.mem_append]
  simp

end DateTime

end Lib
