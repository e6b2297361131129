import Mathlib.Data.List.Basic
import Orchestrator.Lib.PyText

/-!
`json.loads` of bytes, with the exceptions that it raises.

The encoding is told from the first bytes, halves of surrogate pairs pass the
decoders, and the scanner reads one value. Besides the two exceptions for a text
that is no document, an integer of more digits than `int` converts raises
`ValueError` where it stands, and containers nested deeper than the interpreter
recurses raise `RecursionError`. A literal with a fraction or an exponent is kept
as it was written.
-/

/-- A document as `json.loads` gives it back; a repeated name of an object has the
last of its values. -/
inductive PyJson where
  | null
  | bool (b : Bool)
  | int (n : Int)
  | float (literal : List Char)
  | str (s : PyText)
  | arr (items : List PyJson)
  | obj (fields : List (PyText × PyJson))

namespace JsonText

inductive JsonException where
  | unicodeDecodeError
  | jsonDecodeError
  | valueError
  | recursionError
  deriving DecidableEq

/-- The code point of a number; `none` beyond U+10FFFF. -/
def ofCode (n : Nat) : Option PyChar :=
  if h : 0xd800 ≤ n ∧ n < 0xe000 then some (.surrogate ⟨n - 0xd800, by omega⟩)
  else if n < 0x110000 then some (.scalar (Char.ofNat n))
  else none

def prepend (n : Nat) (text : Option PyText) : Option PyText :=
  match ofCode n with
  | some c => text.map (c :: ·)
  | none => none

def isContinuation (b : UInt8) : Bool := b.toNat / 64 = 2

/-- `bytes.decode("utf-8", "surrogatepass")`. -/
def utf8 : List UInt8 → Option PyText
  | [] => some []
  | a :: t =>
      if a.toNat < 0x80 then prepend a.toNat (utf8 t)
      else
        match t with
        | [] => none
        | b :: t =>
            let code := a.toNat % 32 * 64 + b.toNat % 64
            if !isContinuation b then none
            else if 0xc2 ≤ a.toNat ∧ a.toNat < 0xe0 then prepend code (utf8 t)
            else
              match t with
              | [] => none
              | c :: t =>
                  let code := (a.toNat % 16 * 64 + b.toNat % 64) * 64 + c.toNat % 64
                  if !isContinuation c then none
                  else if 0xe0 ≤ a.toNat ∧ a.toNat < 0xf0 ∧ 0x800 ≤ code then prepend code (utf8 t)
                  else
                    match t with
                    | [] => none
                    | d :: t =>
                        let code := ((a.toNat % 8 * 64 + b.toNat % 64) * 64 + c.toNat % 64) * 64 +
                          d.toNat % 64
                        if isContinuation d ∧ 0xf0 ≤ a.toNat ∧ a.toNat < 0xf5 ∧ 0x10000 ≤ code then
                          prepend code (utf8 t)
                        else none

/-- The 16-bit units of the bytes. -/
def units (little : Bool) : List UInt8 → Option (List Nat)
  | [] => some []
  | [_] => none
  | a :: b :: t =>
      (units little t).map
        ((if little then b.toNat * 256 + a.toNat else a.toNat * 256 + b.toNat) :: ·)

/-- The code points of 16-bit units: a pair of surrogates is one. -/
def joinUnits : List Nat → Option PyText
  | [] => some []
  | [n] => prepend n (some [])
  | high :: low :: t =>
      if 0xd800 ≤ high ∧ high < 0xdc00 ∧ 0xdc00 ≤ low ∧ low < 0xe000 then
        prepend (0x10000 + (high - 0xd800) * 0x400 + (low - 0xdc00)) (joinUnits t)
      else prepend high (joinUnits (low :: t))

def utf16 (little : Bool) (bytes : List UInt8) : Option PyText :=
  (units little bytes).bind joinUnits

def utf32 (little : Bool) : List UInt8 → Option PyText
  | [] => some []
  | a :: b :: c :: d :: t =>
      prepend
        (if little then ((d.toNat * 256 + c.toNat) * 256 + b.toNat) * 256 + a.toNat
        else ((a.toNat * 256 + b.toNat) * 256 + c.toNat) * 256 + d.toNat) (utf32 little t)
  | _ => none

/-- The text in the encoding that `json.detect_encoding` finds. -/
def decodeBytes : List UInt8 → Option PyText
  | 0x00 :: 0x00 :: 0xfe :: 0xff :: t => utf32 false t
  | 0xff :: 0xfe :: 0x00 :: 0x00 :: t => utf32 true t
  | 0xfe :: 0xff :: t => utf16 false t
  | 0xff :: 0xfe :: t => utf16 true t
  | 0xef :: 0xbb :: 0xbf :: t => utf8 t
  | a :: b :: c :: d :: t =>
      let bytes := a :: b :: c :: d :: t
      if a = 0 then if b ≠ 0 then utf16 false bytes else utf32 false bytes
      else if b = 0 then if c ≠ 0 ∨ d ≠ 0 then utf16 true bytes else utf32 true bytes
      else utf8 bytes
  | [a, b] =>
      if a = 0 then utf16 false [a, b] else if b = 0 then utf16 true [a, b] else utf8 [a, b]
  | bytes => utf8 bytes

def isBlank (c : PyChar) : Bool :=
  c = .scalar ' ' || c = .scalar '\t' || c = .scalar '\n' || c = .scalar '\r'

def skipSpace (text : PyText) : PyText := text.dropWhile isBlank

theorem length_skipSpace (text : PyText) : (skipSpace text).length ≤ text.length :=
  (List.dropWhile_sublist isBlank).length_le

def hexValue? : PyChar → Option Nat
  | .scalar c =>
      if c.isDigit then some (c.toNat - 48)
      else if 'a' ≤ c ∧ c ≤ 'f' then some (c.toNat - 87)
      else if 'A' ≤ c ∧ c ≤ 'F' then some (c.toNat - 55)
      else none
  | .surrogate _ => none

def hex4? (a b c d : PyChar) : Option Nat := do
  return (((← hexValue? a) * 16 + (← hexValue? b)) * 16 + (← hexValue? c)) * 16 + (← hexValue? d)

def shortEscape? : Char → Option Char
  | '"' => some '"'
  | '\\' => some '\\'
  | '/' => some '/'
  | 'b' => some '\x08'
  | 'f' => some '\x0c'
  | 'n' => some '\n'
  | 'r' => some '\r'
  | 't' => some '\t'
  | _ => none

/-- The units of a string up to its closing quote, whether each was a `\u` escape,
and the rest. -/
def scanUnits : PyText → Option (List (Nat × Bool) × PyText)
  | [] => none
  | .surrogate n :: t => (scanUnits t).map fun r => ((0xd800 + n.val, false) :: r.1, r.2)
  | .scalar c :: t =>
      if c = '"' then some ([], t)
      else if c = '\\' then
        match t with
        | .scalar 'u' :: a :: b :: c :: d :: t =>
            match hex4? a b c d with
            | some n => (scanUnits t).map fun r => ((n, true) :: r.1, r.2)
            | none => none
        | .scalar e :: t =>
            match shortEscape? e with
            | some c => (scanUnits t).map fun r => ((c.toNat, false) :: r.1, r.2)
            | none => none
        | _ => none
      else if c.toNat < 0x20 then none
      else (scanUnits t).map fun r => ((c.toNat, false) :: r.1, r.2)

/-- The code points of a string: an escaped pair of surrogates is one. -/
def joinEscaped : List (Nat × Bool) → Option PyText
  | [] => some []
  | [(n, _)] => prepend n (some [])
  | (high, escaped) :: (low, escaped') :: t =>
      if escaped = true ∧ escaped' = true ∧ 0xd800 ≤ high ∧ high < 0xdc00 ∧ 0xdc00 ≤ low ∧
          low < 0xe000 then
        prepend (0x10000 + (high - 0xd800) * 0x400 + (low - 0xdc00)) (joinEscaped t)
      else prepend high (joinEscaped ((low, escaped') :: t))

/-- The content of a string behind its opening quote, and the rest. -/
def scanString (text : PyText) : Option (PyText × PyText) :=
  (scanUnits text).bind fun r => (joinEscaped r.1).map (·, r.2)

def isDigit : PyChar → Bool
  | .scalar c => c.isDigit
  | .surrogate _ => false

/-- The characters of the digits at the front. -/
def digits (text : PyText) : List Char :=
  (PyText.chars? (text.takeWhile isDigit)).getD []

/-- The end of a number behind its integer: a fraction and an exponent, where they
are complete. -/
def numberTail (text : PyText) : List Char :=
  let fraction := match text with
    | .scalar '.' :: t => if digits t = [] then [] else '.' :: digits t
    | _ => []
  let exponent := match text.drop fraction.length with
    | .scalar e :: .scalar sign :: t =>
        if (e = 'e' ∨ e = 'E') ∧ (sign = '+' ∨ sign = '-') ∧ digits t ≠ [] then
          e :: sign :: digits t
        else if (e = 'e' ∨ e = 'E') ∧ digits (.scalar sign :: t) ≠ [] then
          e :: digits (.scalar sign :: t)
        else []
    | _ => []
  fraction ++ exponent

/-- `sys.get_int_max_str_digits()`. -/
def maxStrDigits : Nat := 4300

def natOfDigits (ds : List Char) : Nat := ds.foldl (fun n c => n * 10 + (c.toNat - 48)) 0

/-- The sign of the number at the front of a text. -/
def sign : PyText → List Char
  | .scalar '-' :: _ => ['-']
  | _ => []

/-- The digits of its integer; a zero in front ends it. -/
def integer (text : PyText) : List Char :=
  let ds := digits (text.drop (sign text).length)
  if ds.head? = some '0' then ['0'] else ds

/-- The number at the front of a text, and its length. -/
def scanNumber (text : PyText) : Except JsonException (PyJson × Nat) :=
  let ds := integer text
  let length := (sign text).length + ds.length
  let tail := numberTail (text.drop length)
  if ds = [] then .error .jsonDecodeError
  else if tail ≠ [] then .ok (.float (sign text ++ ds ++ tail), length + tail.length)
  else if maxStrDigits < ds.length then .error .valueError
  else
    let n : Int := natOfDigits ds
    .ok (.int (if sign text = [] then n else -n), length)

/-- The constants of the scanner. -/
def constants : List (String × PyJson) :=
  [("null", .null), ("true", .bool true), ("false", .bool false),
    ("NaN", .float "NaN".toList), ("Infinity", .float "Infinity".toList),
    ("-Infinity", .float "-Infinity".toList)]

/-- What was read from the front of a text, and the rest. -/
structure Read (α : Type) (text : PyText) where
  value : α
  rest : PyText
  shorter : rest.length < text.length

/-- A string ends behind its closing quote. -/
theorem length_scanUnits {text rest : PyText} {us : List (Nat × Bool)}
    (h : scanUnits text = some (us, rest)) : rest.length < text.length := by
  fun_induction scanUnits text generalizing us
  all_goals simp_all [Option.map_eq_some_iff]
  all_goals grind

theorem length_scanString {text rest : PyText} {s : PyText}
    (h : scanString text = some (s, rest)) : rest.length < text.length := by
  obtain ⟨⟨us, tail⟩, hunits, h⟩ := Option.bind_eq_some_iff.mp h
  obtain ⟨joined, -, heq⟩ := Option.map_eq_some_iff.mp h
  cases heq
  exact length_scanUnits hunits

theorem length_skip {text rest : PyText} {c : PyChar} (h : skipSpace text = c :: rest) :
    rest.length < text.length := by
  have hle := length_skipSpace text
  rw [h, List.length_cons] at hle
  exact hle

theorem length_drop_pos {text : PyText} {n : Nat} (hn : 0 < n) (ht : text ≠ []) :
    (text.drop n).length < text.length := by
  have hlength := List.length_pos_iff.mpr ht
  rw [List.length_drop]
  omega

/-- A number has a digit. -/
theorem length_number {text : PyText} {value : PyJson} {length : Nat}
    (h : scanNumber text = .ok (value, length)) : (text.drop length).length < text.length := by
  cases text with
  | nil => cases h
  | cons c t =>
      refine length_drop_pos ?_ (List.cons_ne_nil c t)
      simp only [scanNumber] at h
      split at h
      · cases h
      rename_i hdigits
      have hpos := List.length_pos_iff.mpr hdigits
      split at h
      · cases h
        omega
      split at h
      · cases h
      · cases h
        omega

/-- The members of a container up to the character that closes it. -/
def scanMembers {α : Type} (close : Char)
    (member : (text : PyText) → Except JsonException (Read α text)) (text : PyText) :
    Except JsonException (Read (List α) text) := do
  let first ← member text
  match hrest : skipSpace first.rest with
  | [] => .error .jsonDecodeError
  | c :: rest =>
      have hshorter := Nat.lt_trans (length_skip hrest) first.shorter
      if c = .scalar close then .ok ⟨[first.value], rest, hshorter⟩
      else if c = .scalar ',' then
        have hnext := Nat.lt_of_le_of_lt (length_skipSpace rest) hshorter
        let more ← scanMembers close member (skipSpace rest)
        .ok ⟨first.value :: more.value, more.rest, Nat.lt_trans more.shorter hnext⟩
      else .error .jsonDecodeError
termination_by text.length

/-- A name, a colon and a value. -/
def scanPair (value : (text : PyText) → Except JsonException (Read PyJson text)) :
    (text : PyText) → Except JsonException (Read (PyText × PyJson) text)
  | .scalar '"' :: t =>
      match hname : scanString t with
      | none => .error .jsonDecodeError
      | some (name, rest) =>
          match hcolon : skipSpace rest with
          | .scalar ':' :: rest => do
              let v ← value (skipSpace rest)
              .ok ⟨(name, v.value), v.rest, by
                have h₁ := length_scanString hname
                have h₂ := length_skip hcolon
                have h₃ := length_skipSpace rest
                have h₄ := v.shorter
                rw [List.length_cons]
                omega⟩
          | _ => .error .jsonDecodeError
  | _ => .error .jsonDecodeError

/-- `dict` of the pairs: a repeated name keeps its place and gets the new value. -/
def toDict (pairs : List (PyText × PyJson)) : List (PyText × PyJson) :=
  pairs.foldl (fun fields p =>
    if fields.any (fun f => f.1 = p.1) then fields.map fun f => if f.1 = p.1 then p else f
    else fields ++ [p]) []

/-- A container behind its opening character. -/
def scanContainer {α : Type} (close : Char)
    (member : (text : PyText) → Except JsonException (Read α text)) (text : PyText) :
    Except JsonException (Read (List α) text) :=
  match h : skipSpace text with
  | [] => .error .jsonDecodeError
  | c :: rest =>
      if c = .scalar close then .ok ⟨[], rest, length_skip h⟩
      else do
        let members ← scanMembers close member (skipSpace text)
        .ok ⟨members.value, members.rest,
          Nat.lt_of_lt_of_le members.shorter (length_skipSpace text)⟩

/-- A constant or a number. -/
def scanScalar (text : PyText) (hne : text ≠ []) : Except JsonException (Read PyJson text) :=
  match constants.find? (fun c => PyText.ofString c.1 <+: text) with
  | some (name, value) => .ok ⟨value, text.drop (name.length - 1 + 1),
      length_drop_pos (Nat.succ_pos _) hne⟩
  | none =>
      match h : scanNumber text with
      | .ok (value, length) => .ok ⟨value, text.drop length, length_number h⟩
      | .error exc => .error exc

/-- `scan_once`, where containers may nest `depth` deep. -/
def scanOnce (depth : Nat) (text : PyText) : Except JsonException (Read PyJson text) :=
  match text with
  | [] => .error .jsonDecodeError
  | c :: t =>
      if c = .scalar '"' then
        match h : scanString t with
        | some (s, rest) => .ok ⟨.str s, rest, Nat.lt_succ_of_lt (length_scanString h)⟩
        | none => .error .jsonDecodeError
      else if c = .scalar '[' then
        match depth with
        | 0 => .error .recursionError
        | depth + 1 => do
            let items ← scanContainer ']' (scanOnce depth) t
            .ok ⟨.arr items.value, items.rest, Nat.lt_succ_of_lt items.shorter⟩
      else if c = .scalar '\x7b' then
        match depth with
        | 0 => .error .recursionError
        | depth + 1 => do
            let pairs ← scanContainer '\x7d' (scanPair (scanOnce depth)) t
            .ok ⟨.obj (toDict pairs.value), pairs.rest, Nat.lt_succ_of_lt pairs.shorter⟩
      else scanScalar (c :: t) (List.cons_ne_nil c t)

/-- `json.loads` of bytes. -/
def loads (depth : Nat) (bytes : List UInt8) : Except JsonException PyJson :=
  match decodeBytes bytes with
  | none => .error .unicodeDecodeError
  | some text => do
      let document ← scanOnce depth (skipSpace text)
      if skipSpace document.rest = [] then .ok document.value else .error .jsonDecodeError

end JsonText
