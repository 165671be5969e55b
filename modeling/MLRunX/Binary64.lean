import Mathlib.Data.Int.Log
import Mathlib.Data.Rat.Floor
import Mathlib.Tactic.FieldSimp
import Mathlib.Tactic.Linarith
import Mathlib.Tactic.Positivity
import Mathlib.Tactic.Ring

namespace MLRunX.Binary64

def roundEven (x : ℚ) : ℤ :=
  if x - ⌊x⌋ < 1 / 2 then ⌊x⌋
  else if 1 / 2 < x - ⌊x⌋ then ⌊x⌋ + 1
  else if ⌊x⌋ % 2 = 0 then ⌊x⌋
  else ⌊x⌋ + 1

/-- The distance of neighbouring doubles near a number of normal magnitude. -/
def ulp (x : ℚ) : ℚ := 2 ^ (Int.log 2 |x| - 52)

/-- The double nearest to a number of normal magnitude. -/
def toDouble (x : ℚ) : ℚ := roundEven (x / ulp x) * ulp x

theorem floor_le_roundEven (x : ℚ) : ⌊x⌋ ≤ roundEven x := by
  simp only [roundEven]
  split
  · exact le_rfl
  split
  · omega
  split <;> omega

theorem roundEven_err (x : ℚ) : |(roundEven x : ℚ) - x| ≤ 1 / 2 := by
  have hle := Int.floor_le x
  have hlt := Int.lt_floor_add_one x
  have hcases : roundEven x = ⌊x⌋ ∧ x - ⌊x⌋ ≤ 1 / 2 ∨ roundEven x = ⌊x⌋ + 1 ∧
      1 / 2 ≤ x - ⌊x⌋ := by
    simp only [roundEven]
    split
    · rename_i h
      exact .inl ⟨rfl, h.le⟩
    · rename_i h
      rw [not_lt] at h
      split
      · exact .inr ⟨rfl, h⟩
      · rename_i h'
        rw [not_lt] at h'
        split
        · exact .inl ⟨rfl, h'⟩
        · exact .inr ⟨rfl, h⟩
  rw [abs_le]
  rcases hcases with ⟨hr, hx⟩ | ⟨hr, hx⟩
  · rw [hr]
    constructor <;> linarith
  · rw [hr]
    push_cast
    constructor <;> linarith

@[simp] theorem roundEven_intCast (n : ℤ) : roundEven n = n := by
  simp [roundEven]

theorem ulp_pos (x : ℚ) : 0 < ulp x := zpow_pos (by norm_num) _

theorem ulp_le {x : ℚ} (hx : x ≠ 0) : ulp x ≤ |x| / 2 ^ 52 := by
  have h := Int.zpow_log_le_self (b := 2) (by norm_num) (abs_pos.mpr hx)
  rw [ulp, zpow_sub₀ (by norm_num)]
  exact div_le_div_of_nonneg_right (by simpa using h) (by norm_num)

theorem toDouble_err (x : ℚ) : |toDouble x - x| ≤ |x| / 2 ^ 53 := by
  by_cases hx : x = 0
  · have h0 : roundEven (0 : ℚ) = 0 := by simpa using roundEven_intCast 0
    simp [hx, toDouble, h0]
  · have hu := ulp_pos x
    have hfac : toDouble x - x = (roundEven (x / ulp x) - x / ulp x) * ulp x := by
      rw [toDouble, sub_mul, div_mul_cancel₀ x hu.ne']
    calc |toDouble x - x| = |(roundEven (x / ulp x) : ℚ) - x / ulp x| * ulp x := by
          rw [hfac, abs_mul, abs_of_pos hu]
      _ ≤ 1 / 2 * (|x| / 2 ^ 52) := mul_le_mul (roundEven_err _) (ulp_le hx) hu.le (by norm_num)
      _ = |x| / 2 ^ 53 := by ring

theorem toDouble_le {x : ℚ} (hx : 0 ≤ x) : toDouble x ≤ x + x / 2 ^ 53 := by
  have h := (abs_le.mp (toDouble_err x)).2
  rw [abs_of_nonneg hx] at h
  linarith

theorem le_toDouble {x : ℚ} (hx : 0 ≤ x) : x - x / 2 ^ 53 ≤ toDouble x := by
  have h := (abs_le.mp (toDouble_err x)).1
  rw [abs_of_nonneg hx] at h
  linarith

/-- An integer that needs no more bits than a double has is a multiple of the
spacing around every number that is not much larger. -/
theorem exists_mul_ulp {x : ℚ} (hx : x ≠ 0) (hlt : |x| < 2 ^ 53) (n : ℤ) :
    ∃ k : ℤ, (n : ℚ) / ulp x = k := by
  have hlog : Int.log 2 |x| ≤ 52 := by
    have h := (Int.lt_zpow_iff_log_lt (b := 2) (x := 53) (by norm_num) (abs_pos.mpr hx)).mp (by simpa using hlt)
    omega
  obtain ⟨d, hd⟩ : ∃ d : ℕ, 52 - Int.log 2 |x| = d := ⟨(52 - Int.log 2 |x|).toNat, by omega⟩
  refine ⟨n * 2 ^ d, ?_⟩
  have hneg : Int.log 2 |x| - 52 = -(d : ℤ) := by omega
  rw [ulp, hneg, zpow_neg, div_inv_eq_mul, zpow_natCast]
  push_cast
  ring

theorem toDouble_intCast (n : ℤ) (hn : |n| < 2 ^ 53) : toDouble n = n := by
  by_cases h0 : n = 0
  · have h := toDouble_err ((n : ℤ) : ℚ)
    rw [h0] at h ⊢
    simpa [sub_eq_zero] using h
  · have hne : (n : ℚ) ≠ 0 := by exact_mod_cast h0
    obtain ⟨k, hk⟩ := exists_mul_ulp hne (by exact_mod_cast hn) n
    rw [toDouble, hk, roundEven_intCast, ← hk, div_mul_cancel₀ _ (ulp_pos _).ne']

theorem toDouble_natCast (n : ℕ) (hn : n < 2 ^ 53) : toDouble n = n := by
  have h := toDouble_intCast n (by rw [abs_of_nonneg (by positivity)]; exact_mod_cast hn)
  exact_mod_cast h

theorem floor_le_toDouble {x : ℚ} (hx : 0 < x) (hlt : x < 2 ^ 53) : (⌊x⌋ : ℚ) ≤ toDouble x := by
  have hu := ulp_pos x
  obtain ⟨k, hk⟩ := exists_mul_ulp hx.ne' (by rwa [abs_of_pos hx]) ⌊x⌋
  have hkx : k ≤ ⌊x / ulp x⌋ := by
    rw [Int.le_floor, ← hk]
    exact div_le_div_of_nonneg_right (Int.floor_le x) hu.le
  have hkr : (k : ℚ) ≤ roundEven (x / ulp x) := by exact_mod_cast hkx.trans (floor_le_roundEven _)
  calc (⌊x⌋ : ℚ) = k * ulp x := by rw [← hk, div_mul_cancel₀ _ hu.ne']
    _ ≤ toDouble x := mul_le_mul_of_nonneg_right hkr hu.le

theorem floor_toDouble_div {a b : ℕ} (ha : a < 2 ^ 53) (hb : 0 < b) (hpos : 0 < a) :
    ⌊toDouble ((a : ℚ) / b)⌋ = ((a / b : ℕ) : ℤ) := by
  have hbq : (0 : ℚ) < b := by exact_mod_cast hb
  have haq : (0 : ℚ) < a := by exact_mod_cast hpos
  have hx : (0 : ℚ) < a / b := by positivity
  have hle : (a : ℚ) / b ≤ a := div_le_self haq.le (by exact_mod_cast hb)
  have hlt : (a : ℚ) / b < 2 ^ 53 := hle.trans_lt (by exact_mod_cast ha)
  have hlow := floor_le_toDouble hx hlt
  rw [Rat.floor_natCast_div_natCast] at hlow
  have hstep : (a : ℚ) / b + 1 / b ≤ ((a / b : ℕ) : ℚ) + 1 := by
    have hmod : a + 1 ≤ (a / b + 1) * b := by
      have hdiv := Nat.div_add_mod a b
      have hr := Nat.mod_lt a hb
      rw [add_mul, Nat.mul_comm (a / b) b]
      omega
    have hmodq : (a : ℚ) + 1 ≤ (((a / b : ℕ) : ℚ) + 1) * b := by exact_mod_cast hmod
    rwa [← add_div, div_le_iff₀ hbq]
  have hsmall : (a : ℚ) / b / 2 ^ 53 < 1 / b := by
    rw [div_right_comm]
    exact div_lt_div_of_pos_right (by rw [div_lt_one (by norm_num)]; exact_mod_cast ha) hbq
  have hhigh := toDouble_le hx.le
  rw [Int.floor_eq_iff]
  constructor
  · exact_mod_cast hlow
  · rw [Int.cast_natCast]
    linarith

end MLRunX.Binary64
