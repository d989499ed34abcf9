import Mathlib

/-! # Framing

Texts and byte strings one after the other, each behind its length: a list of pairs becomes one byte string.
A length that does not fit into its bytes cannot be written.

* `framed_injective`: no two lists become the same byte string. -/

namespace Lib

abbrev Bytes := List UInt8

/-- `text.encode("utf-8")`. -/
def utf8 (text : String) : Bytes := text.toByteArray.data.toList

theorem utf8_injective : Function.Injective utf8 := by
  intro s t h
  exact String.toByteArray_inj.mp (ByteArray.ext (Array.toList_inj.mp h))

/-! ### Numbers -/

/-- The last `k` bytes of a number, the highest first. -/
def digitsOf : ℕ → ℕ → Bytes
  | 0, _ => []
  | k + 1, n => digitsOf k (n / 256) ++ [UInt8.ofNat (n % 256)]

@[simp] theorem length_digitsOf (k n : ℕ) : (digitsOf k n).length = k := by
  induction k generalizing n with
  | zero => rfl
  | succ k ih => rw [digitsOf, List.length_append, ih, List.length_singleton]

theorem digitsOf_inj {k n m : ℕ} (hn : n < 256 ^ k) (hm : m < 256 ^ k) (h : digitsOf k n = digitsOf k m) :
    n = m := by
  induction k generalizing n m with
  | zero =>
      rw [pow_zero, Nat.lt_one_iff] at hn hm
      rw [hn, hm]
  | succ k ih =>
      obtain ⟨hhigh, hlow⟩ := List.append_inj' h rfl
      rw [pow_succ] at hn hm
      have hquot := ih (Nat.div_lt_of_lt_mul (by rwa [mul_comm] at hn))
        (Nat.div_lt_of_lt_mul (by rwa [mul_comm] at hm)) hhigh
      have hbyte := congrArg UInt8.toNat (List.singleton_inj.mp hlow)
      simp only [UInt8.toNat_ofNat'] at hbyte
      omega

/-- `n.to_bytes(k, "big")`; `none` is its `OverflowError`. -/
def bigEndian (k n : ℕ) : Option Bytes := if n < 256 ^ k then some (digitsOf k n) else none

theorem bigEndian_eq_some_iff {k n : ℕ} {b : Bytes} :
    bigEndian k n = some b ↔ n < 256 ^ k ∧ digitsOf k n = b := by
  rw [bigEndian, Option.ite_none_right_eq_some, Option.some_inj]

/-! ### Frames -/

/-- A text and a byte string, each behind its length in four and in eight bytes. -/
def frame (text : String) (content : Bytes) : Option Bytes := do
  let textLength ← bigEndian 4 (utf8 text).length
  let contentLength ← bigEndian 8 content.length
  return textLength ++ utf8 text ++ contentLength ++ content

/-- The frames of a list. -/
def framed : List (String × Bytes) → Option Bytes
  | [] => some []
  | (text, content) :: entries => do
      let first ← frame text content
      let rest ← framed entries
      return first ++ rest

theorem frame_eq_some_iff {text : String} {content b : Bytes} :
    frame text content = some b ↔ (utf8 text).length < 256 ^ 4 ∧ content.length < 256 ^ 8 ∧
      b = digitsOf 4 (utf8 text).length ++ utf8 text ++ digitsOf 8 content.length ++ content := by
  simp only [frame, Option.bind_eq_bind, Option.bind_eq_some_iff, bigEndian_eq_some_iff]
  constructor
  · rintro ⟨_, ⟨htext, rfl⟩, _, ⟨hcontent, rfl⟩, hb⟩
    exact ⟨htext, hcontent, (Option.some.inj hb).symm⟩
  · rintro ⟨htext, hcontent, rfl⟩
    exact ⟨_, ⟨htext, rfl⟩, _, ⟨hcontent, rfl⟩, rfl⟩

/-- A frame ends where the next one starts. -/
theorem frame_append_inj {text text' : String} {content content' b b' rest rest' : Bytes}
    (h : frame text content = some b) (h' : frame text' content' = some b')
    (heq : b ++ rest = b' ++ rest') : text = text' ∧ content = content' ∧ rest = rest' := by
  obtain ⟨htext, hcontent, rfl⟩ := frame_eq_some_iff.mp h
  obtain ⟨htext', hcontent', rfl⟩ := frame_eq_some_iff.mp h'
  simp only [List.append_assoc] at heq
  obtain ⟨hlength, heq⟩ := List.append_inj heq (by rw [length_digitsOf, length_digitsOf])
  obtain ⟨hutf8, heq⟩ := List.append_inj heq (digitsOf_inj htext htext' hlength)
  obtain ⟨hlength, heq⟩ := List.append_inj heq (by rw [length_digitsOf, length_digitsOf])
  obtain ⟨hsame, hrest⟩ := List.append_inj heq (digitsOf_inj hcontent hcontent' hlength)
  exact ⟨utf8_injective hutf8, hsame, hrest⟩

theorem framed_cons_eq_some_iff {text : String} {content b : Bytes} {entries : List (String × Bytes)} :
    framed ((text, content) :: entries) = some b ↔
      ∃ first rest, frame text content = some first ∧ framed entries = some rest ∧ b = first ++ rest := by
  simp only [framed, Option.bind_eq_bind, Option.bind_eq_some_iff]
  constructor
  · rintro ⟨first, hfirst, rest, hrest, hb⟩
    exact ⟨first, rest, hfirst, hrest, (Option.some.inj hb).symm⟩
  · rintro ⟨first, rest, hfirst, hrest, rfl⟩
    exact ⟨first, hfirst, rest, hrest, rfl⟩

/-- A list that starts with a frame is not empty. -/
theorem frame_ne_nil {text : String} {content b : Bytes} (h : frame text content = some b) : b ≠ [] := by
  obtain ⟨-, -, rfl⟩ := frame_eq_some_iff.mp h
  simp [digitsOf]

/-- No two lists have the same frames. -/
theorem framed_injective {es fs : List (String × Bytes)} {b : Bytes} (hes : framed es = some b)
    (hfs : framed fs = some b) : es = fs := by
  induction es generalizing fs b with
  | nil =>
      obtain rfl := Option.some.inj hes
      cases fs with
      | nil => rfl
      | cons f fs =>
          obtain ⟨first, rest, hfirst, -, hnil⟩ := framed_cons_eq_some_iff.mp hfs
          exact absurd (List.append_eq_nil_iff.mp hnil.symm).1 (frame_ne_nil hfirst)
  | cons e es ih =>
      obtain ⟨first, rest, hfirst, hrest, rfl⟩ := framed_cons_eq_some_iff.mp hes
      cases fs with
      | nil =>
          have hnil := (Option.some.inj hfs).symm
          exact absurd (List.append_eq_nil_iff.mp hnil).1 (frame_ne_nil hfirst)
      | cons f fs =>
          obtain ⟨first', rest', hfirst', hrest', heq⟩ := framed_cons_eq_some_iff.mp hfs
          obtain ⟨htext, hcontent, rfl⟩ := frame_append_inj hfirst hfirst' heq
          rw [ih hrest hrest', Prod.ext htext hcontent]

/-- What fits can be framed. -/
theorem framed_isSome {es : List (String × Bytes)}
    (h : ∀ e ∈ es, (utf8 e.1).length < 2 ^ 32 ∧ e.2.length < 2 ^ 64) : (framed es).isSome := by
  induction es with
  | nil => rfl
  | cons e es ih =>
      obtain ⟨htext, hcontent⟩ := h e List.mem_cons_self
      obtain ⟨rest, hrest⟩ := Option.isSome_iff_exists.mp (ih (fun f hf => h f (List.mem_cons_of_mem e hf)))
      have hfirst := frame_eq_some_iff.mpr ⟨htext.trans_eq (by norm_num), hcontent.trans_eq (by norm_num), rfl⟩
      rw [framed_cons_eq_some_iff.mpr ⟨_, rest, hfirst, hrest, rfl⟩]
      rfl

end Lib
