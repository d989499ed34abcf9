import CrazyHarness.Lib.Decode

/-! # Digests

The digest of a text and the canonical text of a JSON value are parameters: nothing is assumed of either.
`hexdigest` writes a digest in the sixty-four digits that the models ask for. -/

namespace CrazyHarness

open Lib

/-- `hashlib.sha256` of a text in UTF-8, and `json.dumps` with sorted keys and no blanks. -/
structure Hashing where
  sha256 : String → BitVec 256
  dumps : Json → String

/-- The characters of `[0-9a-f]`. -/
def hexDigits : List Char := "0123456789abcdef".toList

/-- A text that matches `^[0-9a-f]{64}$`. -/
abbrev HexDigest := {s : String // s.length = 64 ∧ ∀ c ∈ s.toList, c ∈ hexDigits}

theorem digitChar_mem_hexDigits {n : ℕ} (h : n < 16) : Nat.digitChar n ∈ hexDigits := by
  interval_cases n <;> decide

/-- `digest.hexdigest()`. -/
def hexdigest (digest : BitVec 256) : HexDigest :=
  ⟨String.ofList ((List.range 64).map (fun i => Nat.digitChar (digest.toNat / 16 ^ (63 - i) % 16))), by
    refine ⟨by simp, ?_⟩
    intro c hc
    rw [String.toList_ofList, List.mem_map] at hc
    obtain ⟨i, _, rfl⟩ := hc
    exact digitChar_mem_hexDigits (Nat.mod_lt _ (by decide))⟩

/-- Numbers with the same digits are the same below the power. -/
theorem mod_pow_eq_of_digits {n m k : ℕ} (h : ∀ j < k, n / 16 ^ j % 16 = m / 16 ^ j % 16) :
    n % 16 ^ k = m % 16 ^ k := by
  induction k with
  | zero => rw [pow_zero, Nat.mod_one, Nat.mod_one]
  | succ k ih =>
      rw [Nat.mod_pow_succ, Nat.mod_pow_succ, h k (Nat.lt_succ_self k), ih (fun j hj => h j (by omega))]

theorem digitChar_inj {n m : ℕ} (hn : n < 16) (hm : m < 16) (h : Nat.digitChar n = Nat.digitChar m) : n = m := by
  interval_cases n <;> interval_cases m <;> first | rfl | exact absurd h (by decide)

/-- Different digests are written differently. -/
theorem hexdigest_injective : Function.Injective hexdigest := by
  intro a b h
  have hdigits := List.map_inj_left.mp (String.ofList_injective (congrArg Subtype.val h))
  refine BitVec.eq_of_toNat_eq ?_
  have hsame : a.toNat % 16 ^ 64 = b.toNat % 16 ^ 64 := by
    refine mod_pow_eq_of_digits ?_
    intro j hj
    have hdigit := hdigits (63 - j) (List.mem_range.mpr (by omega))
    rw [show 63 - (63 - j) = j by omega] at hdigit
    exact digitChar_inj (Nat.mod_lt _ (by decide)) (Nat.mod_lt _ (by decide)) hdigit
  rwa [Nat.mod_eq_of_lt (by simpa using a.isLt), Nat.mod_eq_of_lt (by simpa using b.isLt)] at hsame

/-- A digest is not empty. -/
def HexDigest.sized (h : HexDigest) : SizedString 1 none := ⟨h.1, by simp [h.2.1]⟩

end CrazyHarness
