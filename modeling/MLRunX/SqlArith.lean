import MLRunX.Binary64

namespace MLRunX.SqlArith

open Binary64

/-- A number as a query sees it. -/
inductive Value
  | null
  | int (i : ℤ)
  | real (x : ℚ)
  deriving DecidableEq

def fitsInt64 (i : ℤ) : Prop := -2 ^ 63 ≤ i ∧ i < 2 ^ 63

instance (i : ℤ) : Decidable (fitsInt64 i) := by unfold fitsInt64; infer_instance

def Value.toReal : Value → ℚ
  | .null => 0
  | .int i => toDouble i
  | .real x => x

/-- Integers are calculated with while the result has 64 bits, doubles from
there on; nothing comes of a null. -/
def arith (opInt : ℤ → ℤ → ℤ) (opReal : ℚ → ℚ → ℚ) : Value → Value → Value
  | .null, _ => .null
  | _, .null => .null
  | .int a, .int b =>
      if fitsInt64 (opInt a b) then .int (opInt a b) else .real (toDouble (opReal (toDouble a) (toDouble b)))
  | a, b => .real (toDouble (opReal a.toReal b.toReal))

def add : Value → Value → Value := arith (· + ·) (· + ·)

def sub : Value → Value → Value := arith (· - ·) (· - ·)

def mul : Value → Value → Value := arith (· * ·) (· * ·)

/-- Division truncates integers, and by zero gives a null. -/
def div (a b : Value) : Value :=
  if b.toReal = 0 then .null else arith Int.tdiv (· / ·) a b

def truncate (x : ℚ) : ℤ := if 0 ≤ x then ⌊x⌋ else ⌈x⌉

/-- A cast drops the fraction and stays within 64 bits. -/
def castInteger : Value → Value
  | .null => .null
  | .int i => .int i
  | .real x => .int (max (-2 ^ 63) (min (truncate x) (2 ^ 63 - 1)))

def Value.rank : Value → WithBot ℚ
  | .null => ⊥
  | .int i => ((i : ℚ) : WithBot ℚ)
  | .real x => (x : WithBot ℚ)

def Value.le (a b : Value) : Prop := a.rank ≤ b.rank

instance : DecidableRel Value.le := fun a b => by unfold Value.le; infer_instance

instance : Std.Total Value.le := ⟨fun a b => le_total a.rank b.rank⟩

instance : IsTrans Value Value.le := ⟨fun _ _ _ h h' => le_trans h h'⟩

theorem rank_int_lt {i j : ℤ} (h : Value.le (.int i) (.int j)) (hne : i ≠ j) : i < j := by
  have hle : ((i : ℚ) : WithBot ℚ) ≤ ((j : ℚ) : WithBot ℚ) := h
  rw [WithBot.coe_le_coe] at hle
  exact lt_of_le_of_ne (by exact_mod_cast hle) hne

theorem arith_int {opInt : ℤ → ℤ → ℤ} {a b : ℤ} (h : fitsInt64 (opInt a b)) (opReal : ℚ → ℚ → ℚ) :
    arith opInt opReal (.int a) (.int b) = .int (opInt a b) := if_pos h

theorem div_zero (a : Value) : div a (.int 0) = .null := by
  have h : toDouble ((0 : ℤ) : ℚ) = ((0 : ℤ) : ℚ) := toDouble_intCast 0 (by norm_num)
  rw [div, if_pos]
  simpa [Value.toReal] using h

theorem toDouble_ne_zero {x : ℚ} (hx : x ≠ 0) : toDouble x ≠ 0 := by
  intro h0
  have h := toDouble_err x
  rw [h0, zero_sub, abs_neg] at h
  have hpos := abs_pos.mpr hx
  linarith

theorem div_int {a b : ℤ} (hb : b ≠ 0) (h : fitsInt64 (a.tdiv b)) : div (.int a) (.int b) = .int (a.tdiv b) := by
  have hne : (Value.int b).toReal ≠ 0 := toDouble_ne_zero (by exact_mod_cast hb)
  rw [div, if_neg hne, arith_int h]

end MLRunX.SqlArith
