import Mathlib.Data.List.Basic
import Mathlib.Tactic.IntervalCases

/-!
Base64 over the URL-safe alphabet, as Python reads and writes it.

The decoder is the lenient one: it skips what is no digit, takes a padding
character for one only where at least two digits of a group were read, and stops
at a completed padding. What the encoder writes without padding, padded to whole
groups, decodes to the bytes it was made of.
-/

namespace Base64

/-- The value of a digit of both alphabets, after `-_` were translated to `+/`. -/
def value? (c : Char) : Option Nat :=
  if 'A' ≤ c ∧ c ≤ 'Z' then some (c.toNat - 65)
  else if 'a' ≤ c ∧ c ≤ 'z' then some (c.toNat - 71)
  else if '0' ≤ c ∧ c ≤ '9' then some (c.toNat + 4)
  else if c = '+' ∨ c = '-' then some 62
  else if c = '/' ∨ c = '_' then some 63
  else none

/-- The digit of a value below 64 in the URL-safe alphabet. -/
def digit (n : Nat) : Char :=
  if n < 26 then Char.ofNat (n + 65)
  else if n < 52 then Char.ofNat (n + 71)
  else if n < 62 then Char.ofNat (n - 4)
  else if n = 62 then '-'
  else '_'

/-- Where the decoder stands in a group of four digits: the number of digits read,
the bits that are left of them and the padding characters since. -/
structure Position where
  digits : Nat
  left : Nat
  pads : Nat

def start : Position := ⟨0, 0, 0⟩

/-- One digit more, with the byte that it completes. -/
def push (p : Position) (v : Nat) : Position × List UInt8 :=
  match p.digits with
  | 0 => (⟨1, v, 0⟩, [])
  | 1 => (⟨2, v % 16, 0⟩, [UInt8.ofNat (p.left * 4 + v / 16)])
  | 2 => (⟨3, v % 4, 0⟩, [UInt8.ofNat (p.left * 16 + v / 4)])
  | _ => (start, [UInt8.ofNat (p.left * 64 + v)])

/-- `binascii.a2b_base64` without strict mode; `none` is `binascii.Error`. -/
def decodeFrom : Position → List Char → Option (List UInt8)
  | p, [] => if p.digits = 0 then some [] else none
  | p, c :: text =>
      if c = '=' then
        if 2 ≤ p.digits ∧ 4 ≤ p.digits + p.pads + 1 then some []
        else decodeFrom { p with pads := if 2 ≤ p.digits then p.pads + 1 else p.pads } text
      else
        match value? c with
        | none => decodeFrom p text
        | some v => (decodeFrom (push p v).1 text).map ((push p v).2 ++ ·)

def decode (text : List Char) : Option (List UInt8) := decodeFrom start text

/-- The value of a digit of the standard alphabet alone. -/
def standardValue? (c : Char) : Option Nat := if c = '-' ∨ c = '_' then none else value? c

/-- `binascii.a2b_base64` in strict mode; `padded` says whether padding has started. -/
def decodeStrictFrom : Position → Bool → List Char → Option (List UInt8)
  | p, _, [] => if p.digits = 0 then some [] else none
  | p, padded, c :: text =>
      if c = '=' then
        if 2 ≤ p.digits ∧ 4 ≤ p.digits + p.pads + 1 then if text = [] then some [] else none
        else
          decodeStrictFrom { p with pads := if 2 ≤ p.digits then p.pads + 1 else p.pads } true text
      else
        match standardValue? c with
        | none => none
        | some v =>
            if padded then none
            else (decodeStrictFrom (push p v).1 false text).map ((push p v).2 ++ ·)

def decodeStrict (text : List Char) : Option (List UInt8) :=
  if text.head? = some '=' then none else decodeStrictFrom start false text

/-- The encoding without padding characters. -/
def encode : List UInt8 → List Char
  | [] => []
  | [a] => [digit (a.toNat / 4), digit (a.toNat % 4 * 16)]
  | [a, b] =>
      [digit (a.toNat / 4), digit (a.toNat % 4 * 16 + b.toNat / 16), digit (b.toNat % 16 * 4)]
  | a :: b :: c :: rest =>
      digit (a.toNat / 4) :: digit (a.toNat % 4 * 16 + b.toNat / 16) ::
        digit (b.toNat % 16 * 4 + c.toNat / 64) :: digit (c.toNat % 64) :: encode rest

/-- `"=" * (-len(text) % 4)`. -/
def padding (text : List Char) : List Char := List.replicate ((4 - text.length % 4) % 4) '='

/-- The digit of the standard alphabet in place of a URL-safe one. -/
def toStandard (c : Char) : Char := if c = '-' then '+' else if c = '_' then '/' else c

/-- `base64.b64encode`. -/
def encodeStandard (bytes : List UInt8) : List Char :=
  (encode bytes).map toStandard ++ padding (encode bytes)

theorem value?_digit {n : Nat} (h : n < 64) : value? (digit n) = some n := by
  interval_cases n <;> decide

/-- The digits are ASCII and no delimiter. -/
theorem digit_plain {n : Nat} (h : n < 64) : (digit n).toNat < 128 ∧ digit n ≠ '.' := by
  interval_cases n <;> decide

theorem digit_ne_pad {n : Nat} (h : n < 64) : digit n ≠ '=' := by
  interval_cases n <;> decide

/-- A digit is read as its value. -/
theorem decodeFrom_digit (p : Position) {n : Nat} (h : n < 64) (text : List Char) :
    decodeFrom p (digit n :: text) = (decodeFrom (push p n).1 text).map ((push p n).2 ++ ·) := by
  rw [decodeFrom, if_neg (digit_ne_pad h), value?_digit h]

variable {m n : Nat} (a : UInt8) (text : List Char)

theorem decodeFrom_two (hm : m < 64) (hn : n < 64) (ha : m * 4 + n / 16 = a.toNat) :
    decodeFrom start (digit m :: digit n :: text) =
      (decodeFrom ⟨2, n % 16, 0⟩ text).map (a :: ·) := by
  have hbyte : UInt8.ofNat (m * 4 + n / 16) = a := ha ▸ UInt8.ofNat_toNat
  rw [decodeFrom_digit _ hm, decodeFrom_digit _ hn, ← hbyte, Option.map_map]
  rfl

theorem decodeFrom_third {left : Nat} (hn : n < 64) (ha : left * 16 + n / 4 = a.toNat) :
    decodeFrom ⟨2, left, 0⟩ (digit n :: text) =
      (decodeFrom ⟨3, n % 4, 0⟩ text).map (a :: ·) := by
  have hbyte : UInt8.ofNat (left * 16 + n / 4) = a := ha ▸ UInt8.ofNat_toNat
  rw [decodeFrom_digit _ hn, ← hbyte]
  rfl

theorem decodeFrom_fourth {left : Nat} (hn : n < 64) (ha : left * 64 + n = a.toNat) :
    decodeFrom ⟨3, left, 0⟩ (digit n :: text) = (decodeFrom start text).map (a :: ·) := by
  have hbyte : UInt8.ofNat (left * 64 + n) = a := ha ▸ UInt8.ofNat_toNat
  rw [decodeFrom_digit _ hn, ← hbyte]
  rfl

theorem padding_of_group (a b c d : Char) (text : List Char) :
    padding (a :: b :: c :: d :: text) = padding text := by
  simp only [padding, List.length_cons, Nat.add_assoc, Nat.reduceAdd, Nat.add_mod_right]

theorem encode_plain {bytes : List UInt8} : ∀ c ∈ encode bytes, c.toNat < 128 ∧ c ≠ '.' := by
  induction bytes using encode.induct with
  | case1 => exact fun c hc => absurd hc List.not_mem_nil
  | case2 a =>
      have ha := a.toNat_lt
      simp only [encode, List.forall_mem_cons]
      exact ⟨digit_plain (by omega), digit_plain (by omega),
        fun c hc => absurd hc List.not_mem_nil⟩
  | case3 a b =>
      have ha := a.toNat_lt
      have hb := b.toNat_lt
      simp only [encode, List.forall_mem_cons]
      exact ⟨digit_plain (by omega), digit_plain (by omega), digit_plain (by omega),
        fun c hc => absurd hc List.not_mem_nil⟩
  | case4 a b c rest ih =>
      have ha := a.toNat_lt
      have hb := b.toNat_lt
      have hc := c.toNat_lt
      simp only [encode, List.forall_mem_cons]
      exact ⟨digit_plain (by omega), digit_plain (by omega), digit_plain (by omega),
        digit_plain (by omega), ih⟩

/-- The bytes that were encoded come back. -/
theorem decode_encode (bytes : List UInt8) :
    decode (encode bytes ++ padding (encode bytes)) = some bytes := by
  induction bytes using encode.induct with
  | case1 => rfl
  | case2 a =>
      have ha := a.toNat_lt
      rw [decode, encode, List.cons_append, List.cons_append,
        decodeFrom_two a _ (by omega) (by omega) (by omega)]
      rfl
  | case3 a b =>
      have ha := a.toNat_lt
      have hb := b.toNat_lt
      rw [decode, encode, List.cons_append, List.cons_append, List.cons_append,
        decodeFrom_two a _ (by omega) (by omega) (by omega),
        decodeFrom_third b _ (by omega) (by omega)]
      rfl
  | case4 a b c rest ih =>
      have ha := a.toNat_lt
      have hb := b.toNat_lt
      have hc := c.toNat_lt
      rw [decode] at ih ⊢
      rw [encode, padding_of_group, List.cons_append, List.cons_append, List.cons_append,
        List.cons_append, decodeFrom_two a _ (by omega) (by omega) (by omega),
        decodeFrom_third b _ (by omega) (by omega), decodeFrom_fourth c _ (by omega) (by omega), ih]
      rfl

theorem encodeStandard_plain {bytes : List UInt8} : ∀ c ∈ encodeStandard bytes, c.toNat < 128 := by
  intro c hc
  rcases List.mem_append.mp hc with hc | hc
  · obtain ⟨d, hd, rfl⟩ := List.mem_map.mp hc
    rw [toStandard]
    split
    · decide
    · split
      · decide
      · exact (encode_plain d hd).1
  · rw [List.eq_of_mem_replicate hc]
    decide

theorem encode_injective : Function.Injective encode := by
  intro bytes bytes' heq
  have hdecode := decode_encode bytes
  rw [heq, decode_encode bytes'] at hdecode
  exact (Option.some.inj hdecode).symm

end Base64
