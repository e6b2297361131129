import Mathlib.Algebra.Order.Group.Nat
import Mathlib.Data.Nat.ModEq
import Mathlib.Order.Monotone.Basic

/-!
UTC datetimes and the text `isoformat` writes for them.

The fields of a text have fixed widths but for the microseconds, which are left
out where they are zero; the sign of the offset that follows then sorts before
the point that would. So texts are ordered as their datetimes are, and datetimes
as the instants they name.
-/

namespace IsoTime

/-- Numbers counted from where their block starts are ordered by their blocks first. -/
theorem block_lt_iff {start width : Nat → Nat} (hstep : ∀ i, start i + width i ≤ start (i + 1))
    {i j x y : Nat} (hx : x < width i) (hy : y < width j) :
    start i + x < start j + y ↔ i < j ∨ i = j ∧ x < y := by
  have hstart : ∀ i j, i < j → start i + width i ≤ start j := by
    intro i j hij
    induction j with
    | zero => exact absurd hij (Nat.not_lt_zero i)
    | succ j ih =>
        rcases Nat.lt_succ_iff_lt_or_eq.mp hij with hlt | rfl
        · have hmono := ih hlt
          have hnext := hstep j
          omega
        · exact hstep i
  rcases Nat.lt_trichotomy i j with hij | rfl | hij
  · have hle := hstart i j hij
    omega
  · omega
  · have hle := hstart j i hij
    omega

/-- The same with blocks of one width. -/
theorem radix_lt_iff {r i j x y : Nat} (hx : x < r) (hy : y < r) :
    i * r + x < j * r + y ↔ i < j ∨ i = j ∧ x < y := by
  exact @block_lt_iff (· * r) (fun _ => r) (fun i => by rw [Nat.succ_mul]) i j x y hx hy

theorem radix_eq_iff {r i j x y : Nat} (hx : x < r) (hy : y < r) :
    i * r + x = j * r + y ↔ i = j ∧ x = y := by
  have hlt := @radix_lt_iff r i j x y hx hy
  have hgt := @radix_lt_iff r j i y x hy hx
  omega

section Width
variable {a b x y : List Char} {k m n : Nat}

/-- Texts that start with parts of one width are ordered by those parts first. -/
theorem append_lt_append_iff (h : a.length = b.length) :
    a ++ x < b ++ y ↔ a < b ∨ a = b ∧ x < y := by
  induction a generalizing b with
  | nil =>
      obtain rfl := List.length_eq_zero_iff.mp h.symm
      simp
  | cons c a ih =>
      cases b with
      | nil => exact absurd h (by simp)
      | cons d b =>
          have hrest := @ih b (by simpa using h)
          rw [List.cons_append, List.cons_append, List.cons_lt_cons_iff, List.cons_lt_cons_iff,
            hrest, List.cons.injEq]
          grind

/-- `n` in decimals, with zeros before it to the width `k`. -/
def pad : Nat → Nat → List Char
  | 0, _ => []
  | k + 1, n => (n / 10 ^ k).digitChar :: pad k (n % 10 ^ k)

@[simp] theorem length_pad (k n : Nat) : (pad k n).length = k := by
  induction k generalizing n with
  | zero => rfl
  | succ k ih => rw [pad, List.length_cons, ih]

theorem digitChar_lt_iff (hm : m < 10) (hn : n < 10) : m.digitChar < n.digitChar ↔ m < n := by
  have hall : ∀ m n : Fin 10, m.val.digitChar < n.val.digitChar ↔ m.val < n.val := by decide
  exact hall ⟨m, hm⟩ ⟨n, hn⟩

theorem digitChar_eq_iff (hm : m < 10) (hn : n < 10) : m.digitChar = n.digitChar ↔ m = n := by
  have hall : ∀ m n : Fin 10, m.val.digitChar = n.val.digitChar ↔ m.val = n.val := by decide
  exact hall ⟨m, hm⟩ ⟨n, hn⟩

theorem pad_lt_iff (hm : m < 10 ^ k) (hn : n < 10 ^ k) : pad k m < pad k n ↔ m < n := by
  induction k generalizing m n with
  | zero =>
      rw [Nat.lt_one_iff.mp hm, Nat.lt_one_iff.mp hn]
      decide
  | succ k ih =>
      have hpos : 0 < 10 ^ k := Nat.pow_pos (by decide)
      have hdigit : ∀ {i}, i < 10 ^ (k + 1) → i / 10 ^ k < 10 := fun hi => by
        rw [Nat.div_lt_iff_lt_mul hpos, ← Nat.pow_succ']
        exact hi
      rw [pad, pad, List.cons_lt_cons_iff, digitChar_lt_iff (hdigit hm) (hdigit hn),
        digitChar_eq_iff (hdigit hm) (hdigit hn), ih (Nat.mod_lt m hpos) (Nat.mod_lt n hpos),
        ← radix_lt_iff (Nat.mod_lt m hpos) (Nat.mod_lt n hpos), Nat.div_add_mod', Nat.div_add_mod']

theorem pad_inj (hm : m < 10 ^ k) (hn : n < 10 ^ k) : pad k m = pad k n ↔ m = n := by
  constructor
  · intro h
    have hmn := mt (pad_lt_iff hm hn).mpr (by rw [h]; exact List.lt_irrefl _)
    have hnm := mt (pad_lt_iff hn hm).mpr (by rw [h]; exact List.lt_irrefl _)
    omega
  · rintro rfl
    rfl

/-- A padded number before the rest of a text. -/
theorem pad_append_lt_iff (hm : m < 10 ^ k) (hn : n < 10 ^ k) :
    pad k m ++ x < pad k n ++ y ↔ m < n ∨ m = n ∧ x < y := by
  rw [append_lt_append_iff (by rw [length_pad, length_pad]), pad_lt_iff hm hn, pad_inj hm hn]

end Width

def isLeap (year : Nat) : Bool := year % 4 = 0 && (year % 100 ≠ 0 || year % 400 = 0)

def daysInMonth (year month : Nat) : Nat :=
  if month = 2 then (if isLeap year then 29 else 28)
  else if month ∈ [4, 6, 9, 11] then 30
  else if month = 0 then 0
  else 31

def daysBeforeMonth (year : Nat) : Nat → Nat
  | 0 => 0
  | month + 1 => daysBeforeMonth year month + daysInMonth year month

/-- `_days_before_year(year + 1)`. -/
def daysBeforeYear (year : Nat) : Nat := year * 365 + year / 4 - year / 100 + year / 400

def daysInYear (year : Nat) : Nat := if isLeap year then 366 else 365

theorem isLeap_iff (year : Nat) : isLeap year = true ↔ 4 ∣ year ∧ (¬ 100 ∣ year ∨ 400 ∣ year) := by
  simp [isLeap, Nat.dvd_iff_mod_eq_zero]

theorem daysBeforeYear_succ (year : Nat) :
    daysBeforeYear year + daysInYear (year + 1) = daysBeforeYear (year + 1) := by
  have hle : year / 100 ≤ year / 4 := Nat.div_le_div_left (by decide) (by decide)
  have h4 : 100 ∣ year + 1 → 4 ∣ year + 1 := Nat.dvd_trans (by decide)
  have h100 : 400 ∣ year + 1 → 100 ∣ year + 1 := Nat.dvd_trans (by decide)
  rw [daysInYear, daysBeforeYear, daysBeforeYear, Nat.succ_div, Nat.succ_div, Nat.succ_div]
  simp only [isLeap_iff]
  by_cases h₄ : 4 ∣ year + 1
  · by_cases h₁₀₀ : 100 ∣ year + 1
    · by_cases h₄₀₀ : 400 ∣ year + 1
      · simp only [h₄, h₁₀₀, h₄₀₀, not_true_eq_false, or_true, and_self, if_true]
        omega
      · simp only [h₄, h₁₀₀, h₄₀₀, not_true_eq_false, or_false, and_false, if_true, if_false]
        omega
    · simp only [h₄, h₁₀₀, mt h100 h₁₀₀, not_false_eq_true, true_or, and_self, if_true, if_false]
      omega
  · simp only [h₄, mt h4 h₄, mt h100 (mt h4 h₄), false_and, if_false]
    omega

theorem daysBeforeMonth_year (year : Nat) : daysBeforeMonth year 13 = daysInYear year := by
  simp only [daysBeforeMonth, daysInMonth, daysInYear]
  cases isLeap year <;> rfl

theorem daysBeforeMonth_mono (year : Nat) : Monotone (daysBeforeMonth year) :=
  monotone_nat_of_le_succ fun _ => Nat.le_add_right _ _

/-- A UTC datetime, its first year 1. -/
structure UtcDateTime where
  year : Nat
  month : Nat
  day : Nat
  hour : Nat
  minute : Nat
  second : Nat
  microsecond : Nat
  year_bounds : 1 ≤ year ∧ year ≤ 9999
  month_bounds : 1 ≤ month ∧ month ≤ 12
  day_bounds : 1 ≤ day ∧ day ≤ daysInMonth year month
  hour_lt : hour < 24
  minute_lt : minute < 60
  second_lt : second < 60
  microsecond_lt : microsecond < 1000000

namespace UtcDateTime

/-- The days before the date, from the first of year 1. -/
def ordinal (t : UtcDateTime) : Nat :=
  daysBeforeYear (t.year - 1) + (daysBeforeMonth t.year t.month + (t.day - 1))

/-- The microseconds from the start of year 1. -/
def instant (t : UtcDateTime) : Nat :=
  (((t.ordinal * 24 + t.hour) * 60 + t.minute) * 60 + t.second) * 1000000 + t.microsecond

/-- The microseconds and the offset at the end of a text. -/
def fraction (microsecond : Nat) : List Char :=
  if microsecond = 0 then "+00:00".toList else '.' :: (pad 6 microsecond ++ "+00:00".toList)

def isoformat (t : UtcDateTime) : String :=
  String.ofList (pad 4 t.year ++ '-' :: (pad 2 t.month ++ '-' :: (pad 2 t.day ++ 'T' ::
    (pad 2 t.hour ++ ':' :: (pad 2 t.minute ++ ':' ::
      (pad 2 t.second ++ fraction t.microsecond))))))

/-- Datetimes ordered by their fields, from the year on. -/
def Before (t u : UtcDateTime) : Prop :=
  t.year < u.year ∨ t.year = u.year ∧ (t.month < u.month ∨ t.month = u.month ∧
    (t.day < u.day ∨ t.day = u.day ∧ (t.hour < u.hour ∨ t.hour = u.hour ∧
      (t.minute < u.minute ∨ t.minute = u.minute ∧ (t.second < u.second ∨ t.second = u.second ∧
        t.microsecond < u.microsecond)))))

variable {t u : UtcDateTime}

/-- What comes after the seconds is ordered as the microseconds are: a sign sorts before a
point. -/
theorem fraction_lt_iff {m n : Nat} (hm : m < 1000000) (hn : n < 1000000) :
    fraction m < fraction n ↔ m < n := by
  rw [fraction, fraction]
  split
  next hzero =>
      subst hzero
      split
      next hzero' => simp [hzero']
      next hne =>
          refine iff_of_true ?_ (Nat.pos_of_ne_zero hne)
          exact List.cons_lt_cons_iff.mpr (.inl (by decide))
  next hne =>
      split
      next hzero' =>
          refine iff_of_false (fun h => ?_) (by omega)
          rcases List.cons_lt_cons_iff.mp h with hlt | ⟨heq, -⟩
          · exact absurd hlt (by decide)
          · exact absurd heq (by decide)
      next =>
          rw [List.cons_lt_cons_iff, pad_append_lt_iff hm hn]
          simp

theorem daysInMonth_le (year month : Nat) : daysInMonth year month ≤ 31 := by
  rw [daysInMonth]
  split
  · split <;> decide
  · split
    · decide
    · split <;> decide

theorem isoformat_lt_iff : t.isoformat < u.isoformat ↔ t.Before u := by
  have hdays : ∀ t : UtcDateTime, t.day < 10 ^ 2 ∧ t.month < 10 ^ 2 ∧ t.year < 10 ^ 4 := fun t => by
    have hmonth := daysInMonth_le t.year t.month
    have hday := t.day_bounds
    have hmonths := t.month_bounds
    have hyear := t.year_bounds
    omega
  have htimes : ∀ t : UtcDateTime, t.hour < 10 ^ 2 ∧ t.minute < 10 ^ 2 ∧ t.second < 10 ^ 2 :=
    fun t => ⟨t.hour_lt.trans (by decide), t.minute_lt.trans (by decide),
      t.second_lt.trans (by decide)⟩
  have hirrefl : ∀ c : Char, ¬ c < c := fun c => Char.lt_irrefl c
  rw [String.lt_iff, isoformat, isoformat, String.toList_ofList, String.toList_ofList,
    pad_append_lt_iff (hdays t).2.2 (hdays u).2.2, List.cons_lt_cons_iff,
    pad_append_lt_iff (hdays t).2.1 (hdays u).2.1, List.cons_lt_cons_iff,
    pad_append_lt_iff (hdays t).1 (hdays u).1, List.cons_lt_cons_iff,
    pad_append_lt_iff (htimes t).1 (htimes u).1, List.cons_lt_cons_iff,
    pad_append_lt_iff (htimes t).2.1 (htimes u).2.1, List.cons_lt_cons_iff,
    pad_append_lt_iff (htimes t).2.2 (htimes u).2.2,
    fraction_lt_iff t.microsecond_lt u.microsecond_lt]
  simp only [hirrefl, false_or, true_and, Before]

theorem ordinal_lt_iff : t.ordinal < u.ordinal ↔ t.year < u.year ∨ t.year = u.year ∧
    (t.month < u.month ∨ t.month = u.month ∧ t.day < u.day) := by
  have hday : ∀ t : UtcDateTime,
      daysBeforeMonth t.year t.month + (t.day - 1) < daysInYear (t.year - 1 + 1) := fun t => by
    have hmonth := daysBeforeMonth_mono t.year (Nat.succ_le_succ t.month_bounds.2)
    rw [daysBeforeMonth_year] at hmonth
    have hbounds := t.day_bounds
    rw [Nat.sub_add_cancel t.year_bounds.1]
    simp only [daysBeforeMonth] at hmonth
    omega
  have hty := t.year_bounds
  have huy := u.year_bounds
  have htd := t.day_bounds
  have hud := u.day_bounds
  rw [ordinal, ordinal, block_lt_iff (fun year => (daysBeforeYear_succ year).le) (hday t) (hday u)]
  by_cases hyear : t.year = u.year
  · rw [hyear] at htd ⊢
    rw [@block_lt_iff (daysBeforeMonth u.year) (daysInMonth u.year) (fun _ => Nat.le_refl _) _ _ _ _
      (by omega) (by omega)]
    omega
  · omega

theorem ordinal_eq_iff : t.ordinal = u.ordinal ↔
    t.year = u.year ∧ t.month = u.month ∧ t.day = u.day := by
  constructor
  · intro h
    have hlt := mt ordinal_lt_iff.mpr (Nat.not_lt.mpr h.ge)
    have hgt := mt ordinal_lt_iff.mpr (Nat.not_lt.mpr h.le)
    omega
  · intro ⟨hyear, hmonth, hday⟩
    rw [ordinal, ordinal, hyear, hmonth, hday]

/-- Instants are ordered as the fields are. -/
theorem instant_lt_iff : t.instant < u.instant ↔ t.Before u := by
  rw [instant, instant, radix_lt_iff t.microsecond_lt u.microsecond_lt,
    radix_lt_iff t.second_lt u.second_lt, radix_lt_iff t.minute_lt u.minute_lt,
    radix_lt_iff t.hour_lt u.hour_lt, radix_eq_iff t.second_lt u.second_lt,
    radix_eq_iff t.minute_lt u.minute_lt, radix_eq_iff t.hour_lt u.hour_lt, ordinal_lt_iff,
    ordinal_eq_iff, Before]
  omega

/-- Texts are ordered as the instants are. -/
theorem isoformat_le_iff : t.isoformat ≤ u.isoformat ↔ t.instant ≤ u.instant := by
  rw [← String.not_lt, ← Nat.not_lt, isoformat_lt_iff, instant_lt_iff]

end UtcDateTime

end IsoTime
