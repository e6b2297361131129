import Mathlib.Data.List.Basic

/-!
Texts put together from parts, and how much of the parts can be read back: parts
joined by a separator, decimal integers, quoted strings, and the flat JSON
objects that `json.dumps(..., separators=(",", ":"))` writes.

A part that a separator or a bracket follows is read back when the part cannot
hold that character; a quoted string is read back whatever it holds.
-/

namespace Delimited

section Join
variable (sep : Char)

/-- `f"{a}:{b}:{c}"` with `sep` for the colon. -/
def join : List String → String
  | [] => ""
  | [s] => s
  | s :: t :: rest => s ++ (String.singleton sep ++ join (t :: rest))

/-- What stands between the separators. -/
def parts (s : String) : List (List Char) := s.toList.splitOn sep

theorem parts_injective : Function.Injective (parts sep) := fun s t h => by
  have hjoined := congrArg [sep].intercalate h
  rw [parts, parts, List.intercalate_splitOn, List.intercalate_splitOn] at hjoined
  exact String.toList_inj.mp hjoined

variable {sep}

theorem parts_of_notMem {s : String} (h : sep ∉ s.toList) : parts sep s = [s.toList] :=
  List.splitOn_eq_singleton h

theorem parts_append (s t : String) :
    parts sep (s ++ (String.singleton sep ++ t)) = parts sep s ++ parts sep t := by
  simp only [parts, String.toList_append, String.toList_singleton, List.singleton_append]
  exact List.splitOn_append_cons_self s.toList t.toList

/-- A joined text has the parts of what was joined. -/
theorem parts_join (s : String) (rest : List String) :
    parts sep (join sep (s :: rest)) = (s :: rest).flatMap (parts sep) := by
  induction rest generalizing s with
  | nil => simp [join]
  | cons t rest ih => rw [join, parts_append, ih t, ← List.flatMap_cons]

end Join

def isIntChar (c : Char) : Bool := c.isDigit || c = '-'

/-- `str(n)`. -/
def intText (n : Int) : List Char := (toString n).toList

theorem natText_isIntChar {n : Nat} {c : Char} (h : c ∈ n.repr.toList) : isIntChar c = true := by
  rw [Nat.toList_repr] at h
  simp [isIntChar, Nat.isDigit_of_mem_toDigits (by decide) (by decide) h]

theorem natText_injective {m n : Nat} (h : m.repr = n.repr) : m = n := by
  have hread := congrArg (fun s => Nat.ofDigitChars 10 s.toList 0) h
  simpa using hread

theorem intText_isIntChar {n : Int} {c : Char} (h : c ∈ intText n) : isIntChar c = true := by
  rw [intText, Int.toString_eq_repr, Int.repr_eq_if] at h
  split at h
  · exact natText_isIntChar h
  · rw [String.toList_append, List.mem_append] at h
    rcases h with h | h
    · obtain rfl : c = '-' := by simpa using h
      rfl
    · exact natText_isIntChar h

theorem minus_notMem_natText {n : Nat} : '-' ∉ n.repr.toList := fun h => by
  rw [Nat.toList_repr] at h
  exact absurd (Nat.isDigit_of_mem_toDigits (by decide) (by decide) h) (by decide)

theorem minus_natText_ne {m n : Nat} : "-" ++ m.repr ≠ n.repr := fun h =>
  minus_notMem_natText (n := n) (by rw [← h]; simp)

theorem intText_injective {m n : Int} (h : intText m = intText n) : m = n := by
  have htext := String.toList_inj.mp h
  rw [Int.toString_eq_repr, Int.toString_eq_repr, Int.repr_eq_if, Int.repr_eq_if] at htext
  split at htext <;> split at htext
  · have := natText_injective htext; omega
  · exact absurd htext.symm minus_natText_ne
  · exact absurd htext minus_natText_ne
  · have hlist := congrArg String.toList htext
    rw [String.toList_append, String.toList_append] at hlist
    have := natText_injective (String.toList_inj.mp (List.append_cancel_left hlist))
    omega

def hexDigits (n : Nat) : List Char :=
  [(n / 4096 % 16).digitChar, (n / 256 % 16).digitChar, (n / 16 % 16).digitChar,
    (n % 16).digitChar]

/-- One character inside a JSON string; a code point above U+FFFF is written as
two surrogates. -/
def escape (c : Char) : List Char :=
  if c = '"' then ['\\', '"']
  else if c = '\\' then ['\\', '\\']
  else if c = '\n' then ['\\', 'n']
  else if c = '\r' then ['\\', 'r']
  else if c = '\t' then ['\\', 't']
  else if c = Char.ofNat 0x08 then ['\\', 'b']
  else if c = Char.ofNat 0x0c then ['\\', 'f']
  else if 0x20 ≤ c.toNat ∧ c.toNat ≤ 0x7e then [c]
  else if c.toNat < 0x10000 then '\\' :: 'u' :: hexDigits c.toNat
  else
    let offset := c.toNat - 0x10000
    '\\' :: 'u' :: hexDigits (0xd800 + offset / 1024) ++
      '\\' :: 'u' :: hexDigits (0xdc00 + offset % 1024)

def quote (s : String) : List Char := '"' :: s.toList.flatMap escape ++ ['"']

def digitValue (c : Char) : Nat := if c.isDigit then c.toNat - 48 else c.toNat - 87

def readHex : List Char → Option (Nat × List Char)
  | a :: b :: c :: d :: rest =>
      some (digitValue a * 4096 + digitValue b * 256 + digitValue c * 16 + digitValue d, rest)
  | _ => none

/-- What a backslash and this character stand for. -/
def unescapeShort (c : Char) : Char :=
  if c = 'n' then '\n' else if c = 'r' then '\r' else if c = 't' then '\t'
  else if c = 'b' then Char.ofNat 0x08 else if c = 'f' then Char.ofNat 0x0c else c

/-- Read one escaped character; a closing quote is none. -/
def unescape : List Char → Option (Char × List Char)
  | '"' :: _ => none
  | '\\' :: 'u' :: rest => do
      let (high, rest) ← readHex rest
      if 0xd800 ≤ high ∧ high < 0xdc00 then
        let (low, rest) ← readHex (rest.drop 2)
        some (Char.ofNat (0x10000 + (high - 0xd800) * 1024 + (low - 0xdc00)), rest)
      else some (Char.ofNat high, rest)
  | '\\' :: c :: rest => some (unescapeShort c, rest)
  | c :: rest => some (c, rest)
  | [] => none

theorem digitValue_digitChar {n : Nat} (h : n < 16) : digitValue n.digitChar = n := by
  have hall : ∀ m < 16, digitValue m.digitChar = m := by decide
  exact hall n h

theorem readHex_hexDigits {n : Nat} (h : n < 65536) (rest : List Char) :
    readHex (hexDigits n ++ rest) = some (n, rest) := by
  simp only [hexDigits, List.cons_append, List.nil_append, readHex,
    digitValue_digitChar (Nat.mod_lt _ (by decide : 16 > 0))]
  congr 2
  omega

/-- A character is a code point outside the surrogates. -/
theorem toNat_scalar (c : Char) : c.toNat < 0xd800 ∨ 0xdfff < c.toNat ∧ c.toNat < 0x110000 :=
  c.valid

theorem unescape_surrogates (high low : Nat) (hhigh : 0xd800 ≤ high ∧ high < 0xdc00)
    (hlow : low < 65536) (rest : List Char) :
    unescape ('\\' :: 'u' :: (hexDigits high ++ '\\' :: 'u' :: (hexDigits low ++ rest))) =
      some (Char.ofNat (0x10000 + (high - 0xd800) * 1024 + (low - 0xdc00)), rest) := by
  rw [unescape, readHex_hexDigits (by omega)]
  simp only [Option.bind_eq_bind, Option.bind_some, if_pos hhigh, List.drop_succ_cons,
    List.drop_zero, readHex_hexDigits hlow]

/-- An escaped character is read back, whatever follows it. -/
theorem unescape_escape (c : Char) (rest : List Char) :
    unescape (escape c ++ rest) = some (c, rest) := by
  have hscalar := toNat_scalar c
  unfold escape
  split_ifs with hquote hback hn hr ht hb hf hplain hbmp
  · simp [unescape, unescapeShort, hquote]
  · simp [unescape, unescapeShort, hback]
  · simp [unescape, unescapeShort, hn]
  · simp [unescape, unescapeShort, hr]
  · simp [unescape, unescapeShort, ht]
  · simp [unescape, unescapeShort, hb]
  · simp [unescape, unescapeShort, hf]
  · simp [unescape, hback]
  · have hhigh : ¬(0xd800 ≤ c.toNat ∧ c.toNat < 0xdc00) := by omega
    rw [List.cons_append, List.cons_append, unescape, readHex_hexDigits hbmp]
    simp only [Option.bind_eq_bind, Option.bind_some, if_neg hhigh, Char.ofNat_toNat]
  · have hread := unescape_surrogates (0xd800 + (c.toNat - 0x10000) / 1024)
      (0xdc00 + (c.toNat - 0x10000) % 1024) (by omega) (by omega) rest
    have hsum : 0x10000 + (0xd800 + (c.toNat - 0x10000) / 1024 - 0xd800) * 1024 +
        (0xdc00 + (c.toNat - 0x10000) % 1024 - 0xdc00) = c.toNat := by omega
    rw [hsum, Char.ofNat_toNat] at hread
    rw [List.cons_append, List.cons_append, List.cons_append, List.cons_append, List.append_assoc,
      List.cons_append, List.cons_append]
    exact hread

theorem escape_quote_ne (c : Char) (rest tail : List Char) : escape c ++ rest ≠ '"' :: tail := by
  intro h
  have hread := unescape_escape c rest
  rw [h, unescape] at hread
  exact absurd hread (by simp)

/-- A quoted string ends where it says. -/
theorem quote_inj {s t : String} {rest tail : List Char}
    (h : quote s ++ rest = quote t ++ tail) : s = t ∧ rest = tail := by
  have hchars : ∀ l m : List Char, l.flatMap escape ++ '"' :: rest =
      m.flatMap escape ++ '"' :: tail →
      l = m ∧ rest = tail := by
    intro l
    induction l with
    | nil =>
        rintro (_ | ⟨c, m⟩) hlm
        · exact ⟨rfl, by simpa using hlm⟩
        · rw [List.flatMap_cons, List.append_assoc] at hlm
          exact absurd hlm.symm (escape_quote_ne c _ _)
    | cons c l ih =>
        rintro (_ | ⟨d, m⟩) hlm
        · rw [List.flatMap_cons, List.append_assoc] at hlm
          exact absurd hlm (escape_quote_ne c _ _)
        · rw [List.flatMap_cons, List.append_assoc, List.flatMap_cons, List.append_assoc] at hlm
          have hread := congrArg unescape hlm
          rw [unescape_escape, unescape_escape] at hread
          obtain ⟨hc, htail⟩ := Prod.mk.inj (Option.some.inj hread)
          obtain ⟨hl, hrest⟩ := ih m htail
          exact ⟨by rw [hc, hl], hrest⟩
  obtain ⟨hst, hrest⟩ := hchars s.toList t.toList (by simpa [quote] using h)
  exact ⟨String.toList_inj.mp hst, hrest⟩

inductive Value where
  | int (n : Int)
  | str (s : String)

def Value.text : Value → List Char
  | .int n => intText n
  | .str s => quote s

def fieldText (field : String × Value) : List Char := quote field.1 ++ ':' :: field.2.text

def fieldsText : List (String × Value) → List Char
  | [] => []
  | [field] => fieldText field
  | field :: next :: rest => fieldText field ++ ',' :: fieldsText (next :: rest)

/-- `json.dumps(fields, separators=(",", ":"))`. -/
def dumps (fields : List (String × Value)) : String :=
  String.ofList ('\x7b' :: (fieldsText fields ++ ['\x7d']))

theorem takeWhile_intText (n : Int) {d : Char} (hd : isIntChar d = false) (rest : List Char) :
    (intText n ++ d :: rest).takeWhile isIntChar = intText n := by
  rw [List.takeWhile_append_of_pos fun c hc => intText_isIntChar hc, List.takeWhile_cons_of_neg,
    List.append_nil]
  simp [hd]

theorem intText_ne_nil (n : Int) : intText n ≠ [] := by
  rw [intText, Int.toString_eq_repr, Int.repr_eq_if]
  split <;> simp

theorem intText_ne_quote (n : Int) (s : String) {d : Char} (hd : isIntChar d = false)
    (rest tail : List Char) : intText n ++ d :: rest ≠ quote s ++ tail := by
  intro h
  have hint := takeWhile_intText n hd rest
  rw [h] at hint
  exact intText_ne_nil n (by rw [← hint]; rfl)

/-- A value ends where a character stands that no integer holds. -/
theorem value_inj {v w : Value} {d e : Char} {rest tail : List Char}
    (hd : isIntChar d = false) (he : isIntChar e = false)
    (h : v.text ++ d :: rest = w.text ++ e :: tail) : v = w ∧ d :: rest = e :: tail := by
  cases v with
  | int m =>
      cases w with
      | int n =>
          have hdigits := congrArg (List.takeWhile isIntChar) h
          rw [Value.text, Value.text, takeWhile_intText m hd, takeWhile_intText n he] at hdigits
          rw [Value.text, Value.text, hdigits] at h
          exact ⟨by rw [intText_injective hdigits], List.append_cancel_left h⟩
      | str t => exact absurd h (intText_ne_quote m t hd _ _)
  | str s =>
      cases w with
      | int n => exact absurd h.symm (intText_ne_quote n s he _ _)
      | str t =>
          obtain ⟨hst, hrest⟩ := quote_inj h
          exact ⟨by rw [hst], hrest⟩

theorem fieldText_inj {f g : String × Value} {d e : Char} {rest tail : List Char}
    (hd : isIntChar d = false) (he : isIntChar e = false)
    (h : fieldText f ++ d :: rest = fieldText g ++ e :: tail) : f = g ∧ d :: rest = e :: tail := by
  rw [fieldText, fieldText, List.append_assoc, List.append_assoc] at h
  obtain ⟨hname, hvalue⟩ := quote_inj h
  obtain ⟨hv, hrest⟩ := value_inj hd he (List.cons.inj hvalue).2
  exact ⟨Prod.ext hname hv, hrest⟩

theorem fieldText_ne_close (f : String × Value) (rest tail : List Char) :
    fieldText f ++ rest ≠ '\x7d' :: tail := by
  simp [fieldText, quote]

theorem fieldsText_injective : ∀ fs gs : List (String × Value),
    fieldsText fs ++ ['\x7d'] = fieldsText gs ++ ['\x7d'] → fs = gs
  | [], [], _ => rfl
  | [], [g], h => absurd h.symm (fieldText_ne_close g _ _)
  | [], g :: _ :: _, h => by
      rw [fieldsText, fieldsText, List.append_assoc] at h
      exact absurd h.symm (fieldText_ne_close g _ _)
  | [f], [], h => absurd h (fieldText_ne_close f _ _)
  | [f], [g], h => by rw [(fieldText_inj rfl rfl h).1]
  | [f], g :: next :: gs, h => by
      rw [fieldsText, fieldsText, List.append_assoc, List.cons_append] at h
      exact absurd (fieldText_inj rfl rfl h).2 (by simp)
  | f :: _ :: _, [], h => by
      rw [fieldsText, fieldsText, List.append_assoc] at h
      exact absurd h (fieldText_ne_close f _ _)
  | f :: next :: fs, [g], h => by
      rw [fieldsText, fieldsText, List.append_assoc, List.cons_append] at h
      exact absurd (fieldText_inj rfl rfl h).2 (by simp)
  | f :: next :: fs, g :: other :: gs, h => by
      rw [fieldsText, fieldsText, List.append_assoc, List.append_assoc, List.cons_append,
        List.cons_append] at h
      obtain ⟨hfield, hrest⟩ := fieldText_inj rfl rfl h
      rw [hfield, fieldsText_injective _ _ (List.cons.inj hrest).2]

/-- A flat object is read back from its text. -/
theorem dumps_injective : Function.Injective dumps := fun fs gs h => by
  have hlist := String.ofList_injective h
  exact fieldsText_injective fs gs (List.cons.inj hlist).2

example : dumps [("attempt", .int (-1)), ("model", .str "a\"é")] =
    "\x7b\"attempt\":-1,\"model\":\"a\\\"\\u00e9\"\x7d" := by decide

end Delimited
