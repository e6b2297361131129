import Mathlib.Data.Int.Log
import Mathlib.Data.Rat.Floor
import Mathlib.Tactic.Linarith
import Mathlib.Tactic.Positivity

/-!
Numbers with a significand of 53 bits, and sums rounded to them.

A sum is rounded to the nearest such number, and between two as near ones to the
even one. Exponents have no bounds: a sum of doubles is exact where their format
runs out of small exponents, and sums that overflow are left out.
-/

namespace Double

/-- What the last bit of the significand of `x` is worth. -/
def ulp (x : Rat) : Rat := 2 ^ (Int.log 2 |x| - 52)

def roundHalfEven (q : Rat) : Int :=
  if q - ⌊q⌋ < 1 / 2 ∨ q - ⌊q⌋ = 1 / 2 ∧ Even ⌊q⌋ then ⌊q⌋ else ⌊q⌋ + 1

def nearest (x : Rat) : Rat := roundHalfEven (x / ulp x) * ulp x

theorem ulp_pos (x : Rat) : 0 < ulp x :=
  zpow_pos two_pos _

theorem roundHalfEven_intCast (n : Int) : roundHalfEven n = n := by
  simp [roundHalfEven]

theorem le_roundHalfEven {n : Int} {q : Rat} (h : (n : Rat) ≤ q) : n ≤ roundHalfEven q := by
  have hfloor : n ≤ ⌊q⌋ := Int.le_floor.mpr h
  rw [roundHalfEven]
  split
  · exact hfloor
  · omega

theorem abs_roundHalfEven_sub_le (q : Rat) : |(roundHalfEven q : Rat) - q| ≤ 1 / 2 := by
  have hfloor := Int.floor_le q
  have hnext := Int.lt_floor_add_one q
  rw [roundHalfEven, abs_le]
  split
  next hdown =>
      have hhalf : q - ⌊q⌋ ≤ 1 / 2 := hdown.elim le_of_lt (fun h => h.1.le)
      constructor <;> linarith
  next hup =>
      have hhalf : 1 / 2 ≤ q - ⌊q⌋ := not_lt.mp fun h => hup (Or.inl h)
      push_cast
      constructor <;> linarith

theorem two_pow_mul_ulp (x : Rat) : 2 ^ 53 * ulp x = 2 ^ (Int.log 2 |x| + 1) := by
  rw [ulp, ← zpow_natCast, ← zpow_add₀ two_ne_zero]
  congr 1
  push_cast
  omega

/-- The greatest power of two up to a number is `2 ^ 52` times its last bit. -/
theorem ulp_mul_two_pow_le {x : Rat} (hx : x ≠ 0) : 2 ^ 52 * ulp x ≤ |x| := by
  have hlog := Int.zpow_log_le_self (b := 2) (r := |x|) (by decide) (abs_pos.mpr hx)
  have hsplit : 2 * (2 ^ 52 * ulp x) = 2 * 2 ^ Int.log 2 |x| := by
    rw [← mul_assoc, ← pow_succ', two_pow_mul_ulp, zpow_add_one₀ two_ne_zero, mul_comm]
  have hlog' : (2 : Rat) ^ Int.log 2 |x| ≤ |x| := by exact_mod_cast hlog
  linarith

theorem abs_lt_ulp_mul (x : Rat) : |x| < 2 ^ 53 * ulp x := by
  have hlog := Int.lt_zpow_succ_log_self (b := 2) (by decide) |x|
  rw [two_pow_mul_ulp]
  exact_mod_cast hlog

theorem nearest_of_eq_mul {x : Rat} {n : Int} (h : x = n * ulp x) : nearest x = x := by
  have hquot : x / ulp x = n := by
    rw [div_eq_iff (ulp_pos x).ne']
    exact h
  rw [nearest, hquot, roundHalfEven_intCast, ← h]

/-- The last bit of a number is a multiple of that of every smaller one. -/
theorem exists_ulp_eq_mul {x y : Rat} (h : Int.log 2 |y| ≤ Int.log 2 |x|) :
    ∃ n : Int, ulp x = n * ulp y := by
  refine ⟨2 ^ (Int.log 2 |x| - Int.log 2 |y|).toNat, ?_⟩
  have hsplit : Int.log 2 |x| - 52 =
      ((Int.log 2 |x| - Int.log 2 |y|).toNat : Int) + (Int.log 2 |y| - 52) := by
    omega
  rw [ulp, ulp, hsplit, zpow_add₀ two_ne_zero, zpow_natCast]
  push_cast
  rfl

/-- Rounding is off by at most half of the last bit. -/
theorem abs_nearest_sub_le (x : Rat) : |nearest x - x| ≤ |x| / 2 ^ 53 := by
  obtain rfl | hx := eq_or_ne x 0
  · simp [nearest, roundHalfEven]
  have hround := abs_roundHalfEven_sub_le (x / ulp x)
  have hulp := ulp_mul_two_pow_le hx
  have hfactor : nearest x - x = (roundHalfEven (x / ulp x) - x / ulp x) * ulp x := by
    rw [nearest, sub_mul, div_mul_cancel₀ _ (ulp_pos x).ne']
  rw [hfactor, abs_mul, abs_of_pos (ulp_pos x)]
  calc |(roundHalfEven (x / ulp x) : Rat) - x / ulp x| * ulp x
      ≤ 1 / 2 * ulp x := mul_le_mul_of_nonneg_right hround (ulp_pos x).le
    _ ≤ |x| / 2 ^ 53 := by
        rw [le_div_iff₀ (by positivity)]
        linarith

theorem mul_ulp_le_nearest {x : Rat} {n : Int} (h : n * ulp x ≤ x) : n * ulp x ≤ nearest x := by
  have hround : n ≤ roundHalfEven (x / ulp x) :=
    le_roundHalfEven ((le_div_iff₀ (ulp_pos x)).mpr h)
  rw [nearest]
  exact mul_le_mul_of_nonneg_right (by exact_mod_cast hround) (ulp_pos x).le

/-- No number that needs no rounding is passed by rounding a greater one. -/
theorem le_nearest {r x : Rat} (hr : nearest r = r) (h : r ≤ x) : r ≤ nearest x := by
  by_cases hlog : Int.log 2 |x| ≤ Int.log 2 |r|
  · obtain ⟨n, hn⟩ := exists_ulp_eq_mul hlog
    have hmul : r = (roundHalfEven (r / ulp r) * n : Int) * ulp x := by
      rw [Int.cast_mul, mul_assoc, ← hn]
      exact hr.symm
    rw [hmul] at h ⊢
    exact mul_ulp_le_nearest h
  · -- here `r` is below the greatest power of two up to `|x|`
    have hsmall : |r| < 2 ^ 52 * ulp x := by
      have hlt := abs_lt_ulp_mul r
      have hle : 2 ^ 53 * ulp r ≤ 2 ^ 52 * ulp x := by
        rw [ulp, ulp, ← zpow_natCast, ← zpow_natCast, ← zpow_add₀ two_ne_zero,
          ← zpow_add₀ two_ne_zero]
        exact zpow_le_zpow_right₀ one_le_two (by push_cast; omega)
      exact hlt.trans_le hle
    obtain rfl | hx := eq_or_ne x 0
    · simpa [nearest, roundHalfEven] using h
    have hulp := ulp_mul_two_pow_le hx
    have hpos : 0 < x := by
      by_contra hneg
      rw [abs_of_nonpos (not_lt.mp hneg)] at hulp
      rw [abs_of_nonpos (h.trans (not_lt.mp hneg))] at hsmall
      linarith
    rw [abs_of_pos hpos] at hulp
    have hnearest := mul_ulp_le_nearest (x := x) (n := 2 ^ 52) (by push_cast; exact hulp)
    push_cast at hnearest
    linarith [le_abs_self r]

/-- A rounded number needs no rounding. -/
theorem nearest_nearest (x : Rat) : nearest (nearest x) = nearest x := by
  obtain rfl | hx := eq_or_ne x 0
  · simp [nearest, roundHalfEven]
  obtain hzero | hy := eq_or_ne (nearest x) 0
  · rw [hzero]
    simp [nearest, roundHalfEven]
  -- the multiple of the last bit that `x` is rounded to
  have hmul : nearest x = roundHalfEven (x / ulp x) * ulp x := rfl
  have hquot : |x / ulp x| < 2 ^ 53 := by
    rw [abs_div, abs_of_pos (ulp_pos x), div_lt_iff₀ (ulp_pos x)]
    exact abs_lt_ulp_mul x
  have hle : |roundHalfEven (x / ulp x)| ≤ 2 ^ 53 := by
    have hround := abs_le.mp (abs_roundHalfEven_sub_le (x / ulp x))
    have hbounds := abs_lt.mp hquot
    have hlt : |(roundHalfEven (x / ulp x) : Rat)| < 2 ^ 53 + 1 := by
      rw [abs_lt]
      constructor <;> linarith
    have hlt' : |roundHalfEven (x / ulp x)| < 2 ^ 53 + 1 := by exact_mod_cast hlt
    omega
  have habs : |nearest x| = |roundHalfEven (x / ulp x)| * ulp x := by
    rw [hmul, abs_mul, abs_of_pos (ulp_pos x), Int.cast_abs]
  obtain hfull | hless := hle.eq_or_lt
  · have hlog : Int.log 2 |nearest x| = Int.log 2 |x| + 1 := by
      rw [habs, hfull, Int.cast_pow, Int.cast_ofNat, two_pow_mul_ulp]
      exact_mod_cast Int.log_zpow (R := Rat) (b := 2) (by decide) (Int.log 2 |x| + 1)
    have hulp : ulp (nearest x) = 2 * ulp x := by
      rw [ulp, ulp, hlog, ← zpow_one_add₀ two_ne_zero]
      congr 1
      omega
    obtain hpos | hneg := eq_or_eq_neg_of_abs_eq hfull
    · refine nearest_of_eq_mul (n := 2 ^ 52) ?_
      rw [hulp, hmul, hpos]
      push_cast
      ring
    · refine nearest_of_eq_mul (n := -2 ^ 52) ?_
      rw [hulp, hmul, hneg]
      push_cast
      ring
  · have hlt : |nearest x| < 2 ^ (Int.log 2 |x| + 1) := by
      rw [habs, ← two_pow_mul_ulp]
      refine mul_lt_mul_of_pos_right ?_ (ulp_pos x)
      exact_mod_cast hless
    have hlog : Int.log 2 |nearest x| < Int.log 2 |x| + 1 :=
      (Int.lt_zpow_iff_log_lt (by decide) (abs_pos.mpr hy)).mp (by exact_mod_cast hlt)
    obtain ⟨n, hn⟩ := exists_ulp_eq_mul (x := x) (y := nearest x) (by omega)
    refine nearest_of_eq_mul (n := roundHalfEven (x / ulp x) * n) ?_
    rw [Int.cast_mul, mul_assoc, ← hn]
    exact hmul

end Double

@[ext] structure Double where
  val : Rat
  rounded : Double.nearest val = val
  deriving DecidableEq

namespace Double

/-- The double nearest to a number. -/
def ofRat (x : Rat) : Double := ⟨nearest x, nearest_nearest x⟩

def add (a b : Double) : Double := ofRat (a.val + b.val)

def sub (a b : Double) : Double := ofRat (a.val - b.val)

@[simp] theorem ofRat_zero : (ofRat 0).val = 0 := by
  simp [ofRat, nearest, roundHalfEven]

theorem ofRat_val (a : Double) : ofRat a.val = a := by
  cases a with
  | mk val rounded => simp [ofRat, rounded]

theorem sub_self (a : Double) : a.sub a = ofRat 0 := by
  rw [sub, sub_eq_zero_of_eq rfl]

theorem add_zero (a : Double) : a.add (ofRat 0) = a := by
  rw [add, ofRat_zero, Rat.add_zero, ofRat_val]

theorem le_add {r a b : Double} (h : r.val ≤ a.val + b.val) : r.val ≤ (a.add b).val :=
  le_nearest r.rounded h

theorem le_sub {r a b : Double} (h : r.val ≤ a.val - b.val) : r.val ≤ (a.sub b).val :=
  le_nearest r.rounded h

theorem abs_add_sub_le (a b : Double) :
    |(a.add b).val - (a.val + b.val)| ≤ |a.val + b.val| / 2 ^ 53 :=
  abs_nearest_sub_le _

theorem abs_sub_sub_le (a b : Double) :
    |(a.sub b).val - (a.val - b.val)| ≤ |a.val - b.val| / 2 ^ 53 :=
  abs_nearest_sub_le _

end Double
