import CrazyHarness.Lib.DateTime

/-! # The order of timestamps as texts

A timestamp is stored as its ISO text, and a database compares texts.  `isoformat_le_iff` says what
this comparison comes to between the years 1 and 9999: it compares what the clocks of the two zones show,
which is the time itself only where both are written in one zone.

* `digits_lt`: numerals of one width are ordered like the numbers.
* `civil_lt`: the calendar date, read from the year on, grows with the day.
* `stamp_lt`: so does the text, with the time of the day. -/

namespace Lib

/-! ### Texts field by field -/

section fields

variable {x y : Char} {xs ys as bs : List Char}

/-- The first field decides. -/
theorem append_lt_of_lt (h : xs < ys) (hlength : xs.length = ys.length) : xs ++ as < ys ++ bs := by
  induction xs generalizing ys with
  | nil =>
      rw [List.length_nil, eq_comm, List.length_eq_zero_iff] at hlength
      rw [hlength] at h
      exact absurd h (List.lt_irrefl _)
  | cons x xs ih =>
      cases ys with
      | nil => exact absurd hlength (by simp)
      | cons y ys =>
          rw [List.cons_append, List.cons_append, List.cons_lt_cons_iff]
          rcases List.cons_lt_cons_iff.mp h with hxy | ⟨rfl, hrest⟩
          · exact .inl hxy
          · exact .inr ⟨rfl, ih hrest (by simpa using hlength)⟩

theorem cons_lt_cons_self (h : xs < ys) : x :: xs < x :: ys := List.cons_lt_cons_iff.mpr (.inr ⟨rfl, h⟩)

end fields

/-! ### Numerals -/

/-- The last `width` decimal digits of a number. -/
def digits : ℕ → ℕ → List Char
  | 0, _ => []
  | width + 1, n => digits width (n / 10) ++ [Nat.digitChar (n % 10)]

@[simp] theorem length_digits (width n : ℕ) : (digits width n).length = width := by
  induction width generalizing n with
  | zero => rfl
  | succ width ih => rw [digits, List.length_append, ih, List.length_singleton]

theorem digitChar_lt {a b : ℕ} (h : a < b) (hb : b < 10) : Nat.digitChar a < Nat.digitChar b := by
  interval_cases b <;> interval_cases a <;> decide

/-- Numerals of one width are ordered like the numbers. -/
theorem digits_lt {width a b : ℕ} (h : a < b) (hb : b < 10 ^ width) : digits width a < digits width b := by
  induction width generalizing a b with
  | zero => omega
  | succ width ih =>
      rw [digits, digits]
      rcases Nat.lt_or_ge (a / 10) (b / 10) with hlt | hge
      · exact append_lt_of_lt (ih hlt (by omega)) (by simp)
      · have heq : a / 10 = b / 10 := by omega
        rw [heq]
        refine List.append_left_lt ?_
        rw [List.cons_lt_cons_iff]
        exact .inl (digitChar_lt (by omega) (Nat.mod_lt b (by norm_num)))

/-- With enough zeros on the left a decimal numeral has all digits of its width. -/
theorem replicate_toDigits {width n : ℕ} (hn : n < 10 ^ (width + 1)) :
    List.replicate (width + 1 - (Nat.toDigits 10 n).length) '0' ++ Nat.toDigits 10 n =
      digits (width + 1) n := by
  induction width generalizing n with
  | zero =>
      rw [Nat.toDigits_of_lt_base (by omega), digits, digits, Nat.mod_eq_of_lt (by omega)]
      rfl
  | succ width ih =>
      rw [digits]
      rcases Nat.lt_or_ge n 10 with hlt | hge
      · rw [← ih (by omega), Nat.toDigits_of_lt_base hlt, Nat.div_eq_of_lt hlt, Nat.mod_eq_of_lt hlt,
          Nat.toDigits_zero]
        show List.replicate (width + 1) '0' ++ _ = _
        rw [List.replicate_succ']
        rfl
      · rw [← ih (by omega), Nat.toDigits_of_base_le (by norm_num) hge]
        simp

namespace DateTime

theorem toList_pad {width : ℕ} {n : ℤ} (hn : n < 10 ^ (width + 1)) :
    (pad (width + 1) n).toList = digits (width + 1) n.toNat := by
  have hlt : n.toNat < 10 ^ (width + 1) := by
    have hpos : 0 < 10 ^ (width + 1) := Nat.pow_pos (by norm_num)
    have hcast : ((10 ^ (width + 1) : ℕ) : ℤ) = 10 ^ (width + 1) := by push_cast; rfl
    omega
  rw [← replicate_toDigits hlt]
  unfold pad
  have htext : (toString n.toNat).toList = Nat.toDigits 10 n.toNat := Nat.toList_repr
  rw [String.toList_append, String.toList_ofList, ← String.length_toList, htext]

/-! ### The calendar -/

/-- The date, read from the year on. -/
def Earlier (d e : ℤ × ℤ × ℤ) : Prop :=
  d.1 < e.1 ∨ d.1 = e.1 ∧ (d.2.1 < e.2.1 ∨ d.2.1 = e.2.1 ∧ d.2.2 < e.2.2)

/-- Where a day of an era stands: the year, and the days of the year that lie before it. -/
theorem yearOfEra_spec {doe : ℤ} (h₀ : 0 ≤ doe) (h : doe < 146097) :
    let yoe := (doe - doe / 1460 + doe / 36524 - doe / 146096) / 365
    0 ≤ yoe ∧ yoe ≤ 399 ∧ 0 ≤ doe - (365 * yoe + yoe / 4 - yoe / 100) ∧
      doe - (365 * yoe + yoe / 4 - yoe / 100) ≤ 366 := by
  have hlow : 0 ≤ doe / 36524 := by omega
  have hhigh : doe / 36524 ≤ 4 := by omega
  have hera : doe / 146096 = doe / 36524 / 4 := by omega
  rw [hera]
  generalize hcentury : doe / 36524 = century at *
  intro yoe
  have hyoe : yoe = (doe - doe / 1460 + century - century / 4) / 365 := rfl
  clear_value yoe
  rcases lt_or_eq_of_le hhigh with hhigh | rfl
  · -- Within a century every fourth year is a leap year.
    have hhundred : yoe / 100 = century := by interval_cases century <;> omega
    have hfourth : yoe / 4 - century ≤ doe / 1460 - century := by interval_cases century <;> omega
    interval_cases century <;> omega
  · omega

theorem yearOfEra_mono {doe doe' : ℤ} (h : doe ≤ doe') :
    (doe - doe / 1460 + doe / 36524 - doe / 146096) / 365 ≤
      (doe' - doe' / 1460 + doe' / 36524 - doe' / 146096) / 365 := by
  have hleap : doe - doe / 1460 ≤ doe' - doe' / 1460 := by omega
  have hera : doe / 146096 = doe / 36524 / 4 := by omega
  have hera' : doe' / 146096 = doe' / 36524 / 4 := by omega
  have hcentury : doe / 36524 ≤ doe' / 36524 := by omega
  refine Int.ediv_le_ediv (by norm_num) ?_
  rw [hera, hera']
  omega

/-- The date of a day of a year that begins on the first of March. -/
def marchDate (year doy : ℤ) : ℤ × ℤ × ℤ :=
  let mp := (5 * doy + 2) / 153
  let day := doy - (153 * mp + 2) / 5 + 1
  let month := if mp < 10 then mp + 3 else mp - 9
  (year + (if month ≤ 2 then 1 else 0), month, day)

theorem marchDate_lt {year doy year' doy' : ℤ} (h₀ : 0 ≤ doy) (h : doy ≤ 366) (h₀' : 0 ≤ doy')
    (h' : doy' ≤ 366) (hlt : year < year' ∨ year = year' ∧ doy < doy') :
    Earlier (marchDate year doy) (marchDate year' doy') := by
  unfold Earlier marchDate
  dsimp only
  split_ifs <;> omega

theorem marchDate_fields {year doy : ℤ} (h₀ : 0 ≤ doy) (h : doy ≤ 366) :
    0 ≤ (marchDate year doy).2.1 ∧ (marchDate year doy).2.1 < 100 ∧
      0 ≤ (marchDate year doy).2.2 ∧ (marchDate year doy).2.2 < 100 := by
  unfold marchDate
  dsimp only
  split_ifs <;> omega

/-- A day as an era, a year of it and a day of this. -/
theorem civil_eq (days : ℤ) : ∃ era yoe doy : ℤ, civil days = marchDate (yoe + era * 400) doy ∧
    era = (days + 719468) / 146097 ∧
    yoe = ((days + 719468) % 146097 - (days + 719468) % 146097 / 1460 +
      (days + 719468) % 146097 / 36524 - (days + 719468) % 146097 / 146096) / 365 ∧
    doy = (days + 719468) % 146097 - (365 * yoe + yoe / 4 - yoe / 100) ∧
    0 ≤ yoe ∧ yoe ≤ 399 ∧ 0 ≤ doy ∧ doy ≤ 366 := by
  let doe := (days + 719468) % 146097
  let yoe := (doe - doe / 1460 + doe / 36524 - doe / 146096) / 365
  have hspec := yearOfEra_spec (Int.emod_nonneg (days + 719468) (by norm_num))
    (Int.emod_lt_of_pos (days + 719468) (by norm_num))
  exact ⟨(days + 719468) / 146097, yoe, doe - (365 * yoe + yoe / 4 - yoe / 100), rfl, rfl, rfl, rfl,
    hspec⟩

theorem emod_lt_emod {a b n : ℤ} (hn : 0 < n) (h : a < b) (hdiv : b / n ≤ a / n) : a % n < b % n := by
  have heq : a / n = b / n := le_antisymm (Int.ediv_le_ediv hn h.le) hdiv
  have ha := Int.emod_add_mul_ediv a n
  have hb := Int.emod_add_mul_ediv b n
  rw [heq] at ha
  omega

/-- The date grows with the day. -/
theorem civil_lt {a b : ℤ} (h : a < b) : Earlier (civil a) (civil b) := by
  obtain ⟨era, yoe, doy, hciv, hera, hyoe, hdoy, hyoe₀, hyoe₁, hdoy₀, hdoy₁⟩ := civil_eq a
  obtain ⟨era', yoe', doy', hciv', hera', hyoe', hdoy', hyoe₀', hyoe₁', hdoy₀', hdoy₁'⟩ := civil_eq b
  rw [hciv, hciv']
  refine marchDate_lt hdoy₀ hdoy₁ hdoy₀' hdoy₁' ?_
  have hle : era ≤ era' := by
    rw [hera, hera']
    exact Int.ediv_le_ediv (by norm_num) (by linarith)
  rcases lt_or_eq_of_le hle with hlater | hsame
  · left
    linarith
  · have hdoe : (a + 719468) % 146097 < (b + 719468) % 146097 :=
      emod_lt_emod (by norm_num) (by linarith) (by rw [← hera, ← hera', hsame])
    have hyear : yoe ≤ yoe' := by
      rw [hyoe, hyoe']
      exact yearOfEra_mono hdoe.le
    rcases lt_or_eq_of_le hyear with hlater | heq
    · left
      linarith
    · right
      rw [hdoy, hdoy', heq, hsame]
      exact ⟨rfl, by linarith⟩

theorem civil_fields (days : ℤ) : 0 ≤ (civil days).2.1 ∧ (civil days).2.1 < 100 ∧
    0 ≤ (civil days).2.2 ∧ (civil days).2.2 < 100 := by
  obtain ⟨era, yoe, doy, hciv, -, -, -, -, -, hdoy₀, hdoy₁⟩ := civil_eq days
  rw [hciv]
  exact marchDate_fields hdoy₀ hdoy₁

/-- The days from the first of January of the year 1 to the end of the year 9999. -/
theorem civil_year {days : ℤ} (h : -719162 ≤ days) (h' : days ≤ 2932896) :
    1 ≤ (civil days).1 ∧ (civil days).1 ≤ 9999 := by
  have hfirst : civil (-719162) = (1, 1, 1) := by decide +kernel
  have hlast : civil 2932896 = (9999, 12, 31) := by decide +kernel
  constructor
  · rcases lt_or_eq_of_le h with hlt | rfl
    · have hdate := civil_lt hlt
      unfold Earlier at hdate
      rw [hfirst] at hdate
      omega
    · rw [hfirst]
  · rcases lt_or_eq_of_le h' with hlt | rfl
    · have hdate := civil_lt hlt
      unfold Earlier at hdate
      rw [hlast] at hdate
      omega
    · rw [hlast]

/-! ### The text -/

/-- A field and what follows it. -/
theorem field_lt {width a b : ℕ} {xs ys : List Char} (hb : b < 10 ^ width)
    (h : a < b ∨ a = b ∧ xs < ys) : digits width a ++ xs < digits width b ++ ys := by
  rcases h with hlt | ⟨rfl, hrest⟩
  · exact append_lt_of_lt (digits_lt hlt hb) (by simp)
  · exact List.append_left_lt hrest

/-- What the clock of the zone shows, in microseconds. -/
def wall (d : DateTime) : ℤ := d.instant + d.utcOffset.getD 0 * 1000000

/-- A timestamp that Python can hold: between the years 1 and 9999, with an offset of less than a
day. -/
structure InRange (d : DateTime) : Prop where
  first : -719162 * 86400 * 1000000 ≤ d.wall
  last : d.wall < 2932897 * 86400 * 1000000
  offset : |d.utcOffset.getD 0| < 86400

/-- The date and the time of the day, to the second. -/
def stamp (seconds : ℤ) : List Char :=
  let (year, month, day) := civil (seconds / 86400)
  let ofDay := seconds % 86400
  digits 4 year.toNat ++ '-' :: (digits 2 month.toNat ++ '-' :: (digits 2 day.toNat ++ 'T' ::
    (digits 2 (ofDay / 3600).toNat ++ ':' :: (digits 2 (ofDay / 60 % 60).toNat ++ ':' ::
      digits 2 (ofDay % 60).toNat))))

/-- The microseconds. -/
def fraction (micro : ℤ) : List Char := if micro = 0 then [] else '.' :: digits 6 micro.toNat

/-- The zone. -/
def zone (d : DateTime) : List Char := ((d.utcOffset.map offsetText).getD "").toList

theorem isoformat_toList {d : DateTime} (h : d.InRange) :
    d.isoformat.toList = stamp (d.wall / 1000000) ++ (fraction (d.wall % 1000000) ++ d.zone) := by
  obtain ⟨hfirst, hlast, -⟩ := h
  have hyear := @civil_year (d.wall / 1000000 / 86400) (by omega) (by omega)
  have hdate := civil_fields (d.wall / 1000000 / 86400)
  have hwall : d.instant + d.utcOffset.getD 0 * 1000000 = d.wall := rfl
  unfold isoformat stamp fraction zone
  rw [hwall]
  dsimp only
  generalize civil (d.wall / 1000000 / 86400) = date at *
  obtain ⟨year, month, day⟩ := date
  dsimp only at hyear hdate ⊢
  simp only [String.toList_append]
  rw [toList_pad (by omega), toList_pad (by omega), toList_pad (by omega), toList_pad (by omega),
    toList_pad (by omega), toList_pad (by omega)]
  split
  · simp
  · rw [String.toList_append, toList_pad (by omega)]
    simp

/-- The text grows with the second. -/
theorem stamp_lt {a b : ℤ} {xs ys : List Char} (hlt : a < b) (hfirst : -719162 * 86400 ≤ a)
    (hlast : b < 2932897 * 86400) : stamp a ++ xs < stamp b ++ ys := by
  have hyear := @civil_year (a / 86400) (by omega) (by omega)
  have hyear' := @civil_year (b / 86400) (by omega) (by omega)
  have hdate := civil_fields (a / 86400)
  have hdate' := civil_fields (b / 86400)
  have hday : a / 86400 < b / 86400 ∨ a / 86400 = b / 86400 ∧ a % 86400 < b % 86400 := by omega
  unfold stamp
  dsimp only
  simp only [List.append_assoc, List.cons_append]
  rcases hday with hday | ⟨hday, htime⟩
  · have hearlier := civil_lt hday
    unfold Earlier at hearlier
    generalize civil (a / 86400) = date at *
    generalize civil (b / 86400) = date' at *
    obtain ⟨year, month, day⟩ := date
    obtain ⟨year', month', day'⟩ := date'
    dsimp only at hyear hyear' hdate hdate' hearlier ⊢
    refine field_lt (by omega) ?_
    rcases hearlier with hy | ⟨hy, hm | ⟨hm, hd⟩⟩
    · exact .inl (by omega)
    · exact .inr ⟨by omega, cons_lt_cons_self (field_lt (by omega) (.inl (by omega)))⟩
    · refine .inr ⟨by omega, cons_lt_cons_self (field_lt (by omega) (.inr ⟨by omega, ?_⟩))⟩
      exact cons_lt_cons_self (field_lt (by omega) (.inl (by omega)))
  · rw [hday]
    refine List.append_left_lt (cons_lt_cons_self (List.append_left_lt (cons_lt_cons_self
      (List.append_left_lt (cons_lt_cons_self ?_)))))
    rcases lt_or_ge (a % 86400 / 3600) (b % 86400 / 3600) with hh | hh
    · exact field_lt (by omega) (.inl (by omega))
    · refine field_lt (by omega) (.inr ⟨by omega, cons_lt_cons_self ?_⟩)
      rcases lt_or_ge (a % 86400 / 60 % 60) (b % 86400 / 60 % 60) with hm | hm
      · exact field_lt (by omega) (.inl (by omega))
      · exact field_lt (by omega) (.inr ⟨by omega, cons_lt_cons_self (field_lt (by omega) (.inl (by omega)))⟩)

section order

variable {d e : DateTime}

/-- Both signs come before the point of the microseconds. -/
theorem zone_cons (h : d.Aware) : ∃ c cs, d.zone = c :: cs ∧ c < '.' := by
  obtain ⟨seconds, hoffset⟩ := Option.isSome_iff_exists.mp h
  unfold zone
  rw [hoffset, Option.map_some, Option.getD_some]
  unfold offsetText
  by_cases hneg : seconds < 0
  · simp only [if_pos hneg, String.toList_append]
    exact ⟨'-', _, rfl, by decide⟩
  · simp only [if_neg hneg, String.toList_append]
    exact ⟨'+', _, rfl, by decide⟩

/-- What the clocks show decides. -/
theorem isoformat_lt (hd : d.InRange) (he : e.InRange) (haware : d.Aware) (h : d.wall < e.wall) :
    d.isoformat < e.isoformat := by
  rw [String.lt_iff_toList_lt, isoformat_toList hd, isoformat_toList he]
  rcases lt_or_ge (d.wall / 1000000) (e.wall / 1000000) with hlt | hge
  · have hfirst := hd.first
    have hlast := he.last
    exact stamp_lt hlt (by omega) (by omega)
  · have heq : d.wall / 1000000 = e.wall / 1000000 := by omega
    rw [heq]
    refine List.append_left_lt ?_
    unfold fraction
    rw [if_neg (show ¬ e.wall % 1000000 = 0 by omega)]
    split
    · obtain ⟨c, cs, hzone, hc⟩ := zone_cons haware
      rw [hzone]
      exact List.cons_lt_cons_iff.mpr (.inl hc)
    · exact cons_lt_cons_self (field_lt (by omega) (.inl (by omega)))

/-- Of the zones the one of UTC comes first. -/
theorem zone_utc_le (hutc : d.utcOffset = some 0) (he : e.InRange) (haware : e.Aware) :
    d.zone = e.zone ∨ d.zone < e.zone := by
  obtain ⟨seconds, hoffset⟩ := Option.isSome_iff_exists.mp haware
  have hlast := he.offset
  rw [hoffset, Option.getD_some] at hlast
  have hzone : d.zone = '+' :: (digits 2 0 ++ ':' :: (digits 2 0 ++ [])) := by
    unfold zone
    rw [hutc]
    decide +kernel
  unfold zone at hzone ⊢
  rw [hzone, hoffset, Option.map_some, Option.getD_some]
  unfold offsetText
  by_cases hneg : seconds < 0
  · right
    simp only [if_pos hneg, String.toList_append]
    exact List.cons_lt_cons_iff.mpr (.inl (by decide))
  · have habs : |seconds| = seconds := abs_of_nonneg (by omega)
    rw [habs] at hlast ⊢
    simp only [if_neg hneg, String.toList_append]
    rw [toList_pad (by omega), toList_pad (by omega)]
    simp only [show "+".toList = ['+'] from rfl, show ":".toList = [':'] from rfl, List.cons_append,
      List.nil_append, List.append_assoc]
    rcases Nat.eq_zero_or_pos (seconds / 3600).toNat with hh | hh
    · rcases Nat.eq_zero_or_pos (seconds / 60 % 60).toNat with hm | hm
      · rw [hh, hm]
        split
        · left
          simp
        · right
          rw [String.toList_append, show ":".toList = [':'] from rfl]
          refine cons_lt_cons_self (List.append_left_lt (cons_lt_cons_self (List.append_left_lt ?_)))
          exact List.nil_lt_cons _ _
      · right
        rw [hh]
        refine cons_lt_cons_self (List.append_left_lt (cons_lt_cons_self ?_))
        exact field_lt (by omega) (.inl hm)
    · right
      exact cons_lt_cons_self (field_lt (by omega) (.inl hh))

/-- **The order of the texts**: a time of UTC comes no later than a text when the clock of its zone
shows no less. -/
theorem isoformat_le_iff (hd : d.InRange) (he : e.InRange) (hutc : d.utcOffset = some 0)
    (haware : e.Aware) : d.isoformat ≤ e.isoformat ↔ d.instant ≤ e.wall := by
  have hwall : d.wall = d.instant := by
    unfold wall
    rw [hutc]
    simp
  have hd' : d.Aware := by
    unfold Aware
    rw [hutc]
    rfl
  rw [← hwall]
  rcases lt_trichotomy d.wall e.wall with hlt | heq | hgt
  · exact iff_of_true (isoformat_lt hd he hd' hlt).le hlt.le
  · refine iff_of_true ?_ heq.le
    rw [String.le_iff_toList_le, isoformat_toList hd, isoformat_toList he, heq]
    rcases zone_utc_le hutc he haware with hzone | hzone
    · rw [hzone]
    · exact (List.append_left_lt (List.append_left_lt hzone)).le
  · exact iff_of_false (not_le.mpr (isoformat_lt he hd haware hgt)) (not_le.mpr hgt)

end order

end DateTime

end Lib
