import Mathlib.Data.List.DropRight
import Orchestrator.Lib.Json

/-!
The Python string operations the repository relies on, over code points.

`strip` uses the code points for which `str.isspace` holds. `lower` maps the
ASCII letters; no other code point lower-cases to an ASCII letter that occurs
in a provider status. `repr` chooses the quotes and escapes of `repr(str)` for
text without unprintable code points above U+00FF. `str` writes a fraction in
positional notation with at most seventeen decimals, as Python does for floats
between 0.0001 and 10^16.
-/

namespace PyStr

def isSpace (c : Char) : Bool :=
  let n := c.toNat
  (0x09 ≤ n && n ≤ 0x0d) || (0x1c ≤ n && n ≤ 0x20) || n == 0x85 || n == 0xa0 ||
    n == 0x1680 || (0x2000 ≤ n && n ≤ 0x200a) || n == 0x2028 || n == 0x2029 ||
    n == 0x202f || n == 0x205f || n == 0x3000

theorem eq_false_of_any {p : Char → Bool} {l : List Char} (h : l.any p = false) :
    ∀ c ∈ l, p c = false :=
  fun c hc => Bool.eq_false_iff.mpr (List.any_eq_false.mp h c hc)

def strip (s : String) : String :=
  String.ofList (((s.toList.dropWhile isSpace).reverse.dropWhile isSpace).reverse)

/-- What is stripped once has no space left at either end. -/
theorem strip_strip (s : String) : strip (strip s) = strip s := by
  let trimmed := s.toList.dropWhile isSpace
  have hstrip : (strip s).toList = trimmed.rdropWhile isSpace := by
    simp [strip, trimmed, List.rdropWhile]
  -- a prefix of a list that starts with no space starts with none
  have hleft : (trimmed.rdropWhile isSpace).dropWhile isSpace = trimmed.rdropWhile isSpace := by
    refine List.dropWhile_eq_self_iff.mpr fun hlength => ?_
    have hfront := List.rdropWhile_prefix isSpace (l := trimmed)
    rw [hfront.getElem hlength]
    exact List.dropWhile_get_zero_not isSpace s.toList _
  rw [strip, hstrip, hleft]
  exact String.toList_inj.mp ((String.toList_ofList ..).trans
    ((List.rdropWhile_idempotent isSpace trimmed).trans hstrip.symm))

/-- `s.rstrip(c)` for one character. -/
def rstripChar (c : Char) (s : String) : String :=
  String.ofList ((s.toList.reverse.dropWhile (· = c)).reverse)

def lowerChar (c : Char) : Char :=
  if 'A' ≤ c ∧ c ≤ 'Z' then Char.ofNat (c.toNat + 32) else c

def lower (s : String) : String := String.ofList (s.toList.map lowerChar)

/-- `s[:n]`. -/
def prefixTo (n : Nat) (s : String) : String := String.ofList (s.toList.take n)

/-- The code points that end a line for `str.splitlines`. -/
def isLineBreak (c : Char) : Bool :=
  let n := c.toNat
  (0x0a ≤ n && n ≤ 0x0d) || (0x1c ≤ n && n ≤ 0x1e) || n == 0x85 || n == 0x2028 || n == 0x2029

/-- The lines of a text whose current line holds `line`, its last character first;
`\r\n` is one break. -/
def linesFrom : List Char → List Char → List String
  | [], [] => []
  | [], line => [String.ofList line.reverse]
  | c :: rest, line =>
      if c = '\r' ∧ rest.head? = some '\n' then linesFrom rest line
      else if isLineBreak c then String.ofList line.reverse :: linesFrom rest []
      else linesFrom rest (c :: line)

def splitLines (s : String) : List String := linesFrom s.toList []

def hexDigit (n : Nat) : Char := Char.ofNat (if n < 10 then 48 + n else 87 + n)

def reprChar (quote : Char) (c : Char) : List Char :=
  if c = quote ∨ c = '\\' then ['\\', c]
  else if c = '\n' then ['\\', 'n']
  else if c = '\r' then ['\\', 'r']
  else if c = '\t' then ['\\', 't']
  else if c.toNat < 0x20 ∨ (0x7f ≤ c.toNat ∧ c.toNat ≤ 0xa0) ∨ c.toNat = 0xad then
    ['\\', 'x', hexDigit (c.toNat / 16), hexDigit (c.toNat % 16)]
  else [c]

/-- `repr(s)`, as `f"{s!r}"` prints it. -/
def repr (s : String) : String :=
  let quote := if '\'' ∈ s.toList ∧ '"' ∉ s.toList then '"' else '\''
  String.ofList (quote :: s.toList.flatMap (reprChar quote) ++ [quote])

def decimals (den : Nat) : Nat → Nat → List Char
  | 0, _ => []
  | n + 1, rem =>
      if rem = 0 then []
      else Char.ofNat (48 + rem * 10 / den) :: decimals den n (rem * 10 % den)

def number (q : Rat) : String :=
  if q.den = 1 then toString q.num
  else
    let n := q.num.natAbs
    (if q.num < 0 then "-" else "") ++ toString (n / q.den) ++ "." ++
      String.ofList (decimals q.den 17 (n % q.den))

mutual
/-- `repr(document)`. -/
def reprJson : Json → String
  | .null => "None"
  | .bool b => if b then "True" else "False"
  | .num q => number q
  | .str s => repr s
  | .arr items => "[" ++ ", ".intercalate (reprItems items) ++ "]"
  | .obj fields => "\x7b" ++ ", ".intercalate (reprFields fields) ++ "\x7d"

def reprItems : List Json → List String
  | [] => []
  | item :: items => reprJson item :: reprItems items

def reprFields : List (String × Json) → List String
  | [] => []
  | (name, value) :: fields => (repr name ++ ": " ++ reprJson value) :: reprFields fields
end

/-- `str(document)`. -/
def str : Json → String
  | .str s => s
  | document => reprJson document

theorem append_ne_empty {s : String} (h : s ≠ "") (t : String) : s ++ t ≠ "" := by
  intro happend
  exact h (String.append_eq_empty_iff.mp happend).1

theorem toString_int_ne_empty (n : Int) : toString n ≠ "" := by
  cases n with
  | ofNat n => exact Nat.repr_ne_empty
  | negSucc n => exact append_ne_empty (by decide) _

theorem number_ne_empty (q : Rat) : number q ≠ "" := by
  unfold number
  split
  · exact toString_int_ne_empty q.num
  · intro hempty
    have hdot := (String.append_eq_empty_iff.mp hempty).1
    exact absurd (String.append_eq_empty_iff.mp hdot).2 (by decide)

/-- What counts in a condition has a text. -/
theorem str_ne_empty {value : Json} (h : value.truthy = true) : str value ≠ "" := by
  cases value with
  | null => simp [Json.truthy] at h
  | bool b =>
      cases b with
      | false => simp [Json.truthy] at h
      | true => decide
  | num q => exact number_ne_empty q
  | str s =>
      change s ≠ ""
      simpa [Json.truthy] using h
  | arr items => exact append_ne_empty (append_ne_empty (by decide) _) _
  | obj fields => exact append_ne_empty (append_ne_empty (by decide) _) _

example : lower (strip " Succeeded\n") = "succeeded" := by decide
example : splitLines "a\r\nb\n\nc" = ["a", "b", "", "c"] := by decide
example : repr "it's" = "\"it's\"" := by decide
example : str (.arr [.num 3, .str "a"]) = "[3, 'a']" := by decide +kernel

end PyStr
