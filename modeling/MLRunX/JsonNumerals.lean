import Mathlib.Data.List.TakeWhile
import MLRunX.JsonText

namespace MLRunX.JsonNumerals

open JsonText

theorem isNumberChar_of_isDigit {c : Char} (h : c.isDigit = true) : isNumberChar c = true := by
  rw [isNumberChar, h, Bool.true_or]

theorem isNumber_digits {cs : List Char} (hne : cs ≠ []) (hdigits : ∀ c ∈ cs, c.isDigit = true)
    (hzero : cs.head? = some '0' → cs = ['0']) : isNumber cs = true ∧ isNumber ('-' :: cs) = true := by
  obtain ⟨c, rest, rfl⟩ := List.exists_cons_of_ne_nil hne
  obtain ⟨hc, -⟩ := List.forall_mem_cons.mp hdigits
  have hsign : (c :: rest).head? ≠ some '-' := by
    intro h
    obtain rfl := Option.some.inj h
    exact absurd hc (by decide)
  have hall : (c :: rest).all isNumberChar = true :=
    List.all_eq_true.mpr (fun d hd => isNumberChar_of_isDigit (hdigits d hd))
  have hend : isFraction (if (c :: rest).head? = some '0' then (c :: rest).tail else
      (c :: rest).dropWhile Char.isDigit) =
      true := by
    by_cases h : (c :: rest).head? = some '0'
    · rw [if_pos h, hzero h]
      rfl
    · rw [if_neg h, List.dropWhile_eq_nil_iff.mpr hdigits]
      rfl
  have hhead : (c :: rest).head?.any Char.isDigit = true := hc
  constructor
  · simp only [isNumber, if_neg hsign, hall, hhead, hend, Bool.true_and]
  · have hminus : ('-' :: c :: rest).all isNumberChar = true := hall
    have hsigned : ('-' :: c :: rest).head? = some '-' := rfl
    simp only [isNumber, if_pos hsigned, List.tail_cons, hminus, hhead, Bool.true_and]
    exact hend

theorem head_toDigits {n : Nat} (hn : 0 < n) : (Nat.toDigits 10 n).head? ≠ some '0' := by
  induction n using Nat.strongRecOn with
  | ind n ih =>
      by_cases h : n < 10
      · rw [Nat.toDigits_of_lt_base h, List.head?_cons, Ne, Option.some.injEq, Nat.digitChar_eq_zero]
        omega
      · rw [Nat.toDigits_of_base_le (by decide) (Nat.le_of_not_lt h),
          List.head?_append_of_ne_nil _ Nat.toDigits_ne_nil]
        exact ih (n / 10) (by omega) (by omega)

theorem isDigit_toDigits {n : Nat} : ∀ c ∈ Nat.toDigits 10 n, c.isDigit = true :=
  fun _ hc => Nat.isDigit_of_mem_toDigits (by decide) (by decide) hc

theorem isNumber_toDigits (n : Nat) : isNumber (Nat.toDigits 10 n) = true ∧
    isNumber ('-' :: Nat.toDigits 10 n) = true := by
  apply isNumber_digits Nat.toDigits_ne_nil isDigit_toDigits
  intro hzero
  rcases Nat.eq_zero_or_pos n with rfl | hn
  · rfl
  · exact absurd hzero (head_toDigits hn)

/-- An integer as it is printed. -/
def intNumeral : Int → Numeral
  | .ofNat n => ⟨Nat.toDigits 10 n, (isNumber_toDigits n).1⟩
  | .negSucc n => ⟨'-' :: Nat.toDigits 10 (n + 1), (isNumber_toDigits (n + 1)).2⟩

def natOf (cs : List Char) : Option Nat := if cs.all Char.isDigit then some (Nat.ofDigitChars 10 cs 0) else none

/-- The integer that a number stands for. A negative zero is none. -/
def intOf (n : Numeral) : Option Int :=
  if n.chars.head? = some '-' then ((natOf n.chars.tail).filter (fun k => k ≠ 0)).map (fun k => -(k : Int))
  else (natOf n.chars).map Int.ofNat

theorem natOf_toDigits (n : Nat) : natOf (Nat.toDigits 10 n) = some n := by
  rw [natOf, if_pos (List.all_eq_true.mpr isDigit_toDigits), Nat.ofDigitChars_ten_toDigits]

theorem intOf_intNumeral (i : Int) : intOf (intNumeral i) = some i := by
  cases i with
  | ofNat n =>
      have hsign : (Nat.toDigits 10 n).head? ≠ some '-' := by
        intro h
        exact absurd (isDigit_toDigits '-' (List.mem_of_head? h)) (by decide)
      simp only [intOf, intNumeral, if_neg hsign, natOf_toDigits, Option.map_some]
  | negSucc n =>
      have hsigned : ('-' :: Nat.toDigits 10 (n + 1)).head? = some '-' := rfl
      simp only [intOf, intNumeral, if_pos hsigned, List.tail_cons, natOf_toDigits]
      rfl

end MLRunX.JsonNumerals
