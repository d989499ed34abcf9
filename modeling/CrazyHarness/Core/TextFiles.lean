import CrazyHarness.Lib.Framing

/-! # Text files

Python reads a text file in UTF-8 and with universal newlines; a file that is written with `newline="\n"`, or
in bytes, keeps the text as it is.

* `readText_utf8`: what comes back of a text that was written.
* `universalNewlines_eq_iff`: the texts that come back as they were. -/

namespace CrazyHarness

open Lib

/-! ### Newlines -/

/-- What is read of a text file: every `\r\n` and every other `\r` as `\n`. -/
def translateNewlines : List Char → List Char
  | '\r' :: '\n' :: cs => '\n' :: translateNewlines cs
  | '\r' :: cs => '\n' :: translateNewlines cs
  | c :: cs => c :: translateNewlines cs
  | [] => []

/-- `translateNewlines`, on texts. -/
def universalNewlines (text : String) : String := String.ofList (translateNewlines text.toList)

theorem not_mem_translateNewlines (cs : List Char) : '\r' ∉ translateNewlines cs := by
  fun_induction translateNewlines cs with
  | case1 cs ih => simp [ih]
  | case2 cs _ ih => simp [ih]
  | case3 c cs _ hc ih =>
      rw [List.mem_cons, not_or]
      exact ⟨fun h => hc h.symm, ih⟩
  | case4 => simp

theorem translateNewlines_eq_self {cs : List Char} (h : '\r' ∉ cs) : translateNewlines cs = cs := by
  fun_induction translateNewlines cs with
  | case1 cs ih => simp at h
  | case2 cs _ ih => simp at h
  | case3 c cs _ _ ih => rw [ih (fun hc => h (List.mem_cons_of_mem c hc))]
  | case4 => rfl

/-- The texts that are read as they were written. -/
theorem universalNewlines_eq_iff {text : String} : universalNewlines text = text ↔ '\r' ∉ text.toList := by
  constructor
  · intro h
    rw [← h, universalNewlines, String.toList_ofList]
    exact not_mem_translateNewlines _
  · intro h
    rw [universalNewlines, translateNewlines_eq_self h, String.ofList_toList]

/-! ### UTF-8 -/

/-- `bytes.decode("utf-8")`; `none` is its `UnicodeDecodeError`. -/
def decodeUtf8 (bytes : Bytes) : Option String := String.fromUTF8? ⟨bytes.toArray⟩

@[simp] theorem decodeUtf8_utf8 (text : String) : decodeUtf8 (utf8 text) = some text := by
  rw [decodeUtf8, utf8, Array.toArray_toList, String.fromUTF8?, dif_pos text.isValidUTF8]
  rfl

/-- What decodes is the encoding of its text. -/
theorem decodeUtf8_eq_some_iff {bytes : Bytes} {text : String} :
    decodeUtf8 bytes = some text ↔ bytes = utf8 text := by
  constructor
  · intro h
    rw [decodeUtf8, String.fromUTF8?] at h
    split at h
    next hvalid =>
      obtain rfl := Option.some.inj h
      rfl
    next => cases h
  · rintro rfl
    exact decodeUtf8_utf8 text

/-- `path.read_text(encoding="utf-8")` of a file with these bytes. -/
def readText (bytes : Bytes) : Option String := (decodeUtf8 bytes).map universalNewlines

@[simp] theorem readText_utf8 (text : String) : readText (utf8 text) = some (universalNewlines text) := by
  rw [readText, decodeUtf8_utf8, Option.map_some]

end CrazyHarness
