import Mathlib.Data.List.Basic

/-!
Python strings with the code points that no encoding has.

A string of Python may hold halves of surrogate pairs, which `str.encode` refuses
and which no decoded text holds.
-/

/-- A code point of a Python string. -/
inductive PyChar where
  | scalar (c : Char)
  | surrogate (n : Fin 2048)
  deriving DecidableEq

abbrev PyText := List PyChar

namespace PyText

def ofChars (cs : List Char) : PyText := cs.map .scalar

def ofString (s : String) : PyText := ofChars s.toList

/-- The characters of a text without surrogates. -/
def chars? : PyText → Option (List Char)
  | [] => some []
  | .scalar c :: t => (chars? t).map (c :: ·)
  | .surrogate _ :: _ => none

/-- `str.encode()`; `none` is `UnicodeEncodeError`. -/
def encode (t : PyText) : Option (List UInt8) :=
  (chars? t).map fun cs => (String.ofList cs).toUTF8.data.toList

/-- `bytes.decode()`; `none` is `UnicodeDecodeError`. -/
def decode (bytes : List UInt8) : Option PyText :=
  (String.fromUTF8? ⟨bytes.toArray⟩).map ofString

def isAsciiChar : PyChar → Bool
  | .scalar c => c.toNat < 128
  | .surrogate _ => false

def isAscii (t : PyText) : Bool := t.all isAsciiChar

/-- The first `n` code points are before the separator that `str.split(sep, 1)`
cuts at; `none` when the text has no separator. -/
def splitOnce (sep : PyChar) : PyText → Option (PyText × PyText)
  | [] => none
  | c :: t => if c = sep then some ([], t) else (splitOnce sep t).map fun s => (c :: s.1, s.2)

theorem chars?_ofChars (cs : List Char) : chars? (ofChars cs) = some cs := by
  induction cs with
  | nil => rfl
  | cons c cs ih =>
      rw [ofChars, List.map_cons, chars?, ← ofChars, ih]
      rfl

theorem ofChars_of_chars? {t : PyText} {cs : List Char} (h : chars? t = some cs) :
    t = ofChars cs := by
  induction t generalizing cs with
  | nil =>
      cases h
      rfl
  | cons c t ih =>
      cases c with
      | surrogate n => cases h
      | scalar c =>
          obtain ⟨rest, hrest, rfl⟩ := Option.map_eq_some_iff.mp h
          rw [ih hrest]
          rfl

theorem chars?_append (s t : PyText) :
    chars? (s ++ t) = (chars? s).bind fun cs => (chars? t).map (cs ++ ·) := by
  induction s with
  | nil => simp [chars?]
  | cons c s ih =>
      cases c with
      | surrogate n => rfl
      | scalar c =>
          rw [List.cons_append, chars?, chars?, ih]
          cases chars? s <;> cases chars? t <;> rfl

/-- A text is encoded when its parts are. -/
theorem encode_append_ne_none {s t : PyText} :
    encode (s ++ t) ≠ none ↔ encode s ≠ none ∧ encode t ≠ none := by
  simp only [encode, ne_eq, Option.map_eq_none_iff, chars?_append]
  cases chars? s <;> cases chars? t <;> simp

/-- What was encoded decodes to the text again. -/
theorem decode_encode {t : PyText} {bytes : List UInt8} (h : encode t = some bytes) :
    decode bytes = some t := by
  obtain ⟨cs, hcs, rfl⟩ := Option.map_eq_some_iff.mp h
  have hdecode : String.fromUTF8? (String.ofList cs).toUTF8 = some (String.ofList cs) := by
    rw [String.fromUTF8?, String.toUTF8_eq_toByteArray, dif_pos (String.ofList cs).isValidUTF8]
    rfl
  have hbytes : (⟨(String.ofList cs).toUTF8.data.toList.toArray⟩ : ByteArray) =
      (String.ofList cs).toUTF8 := rfl
  rw [decode, hbytes, hdecode, Option.map_some, ofString, String.toList_ofList,
    ofChars_of_chars? hcs]

theorem encode_injective {s t : PyText} {bytes : List UInt8} (hs : encode s = some bytes)
    (ht : encode t = some bytes) : s = t :=
  Option.some.inj ((decode_encode hs).symm.trans (decode_encode ht))

/-- Decoded text has no surrogates. -/
theorem encode_of_decode {bytes : List UInt8} {t : PyText} (h : decode bytes = some t) :
    encode t = some bytes := by
  obtain ⟨s, hs, rfl⟩ := Option.map_eq_some_iff.mp h
  rw [String.fromUTF8?] at hs
  split at hs
  · rename_i hvalid
    obtain rfl := Option.some.inj hs
    rw [encode, ofString, chars?_ofChars, Option.map_some, String.ofList_toList]
    rfl
  · cases hs

theorem splitOnce_append {sep : PyChar} {s : PyText} (h : sep ∉ s) (t : PyText) :
    splitOnce sep (s ++ sep :: t) = some (s, t) := by
  induction s with
  | nil => rw [List.nil_append, splitOnce, if_pos rfl]
  | cons c s ih =>
      rw [List.mem_cons, not_or] at h
      rw [List.cons_append, splitOnce, if_neg (Ne.symm h.1), ih h.2, Option.map_some]

end PyText
