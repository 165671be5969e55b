import Mathlib.Data.Nat.Notation

namespace MLRunX.BitPrefixes

/-! Words that agree on their first bits, and the masks that keep these bits. -/

variable {w : ℕ}

/-- The words agree on their first `n` bits. -/
def Agrees (n : ℕ) (x y : BitVec w) : Prop := ∀ i < n, x.getMsbD i = y.getMsbD i

def checkedSub (a b : ℕ) : Option ℕ := if b ≤ a then some (a - b) else none

def checkedShl (x : BitVec w) (k : ℕ) : Option (BitVec w) := if k < w then some (x <<< k) else none

/-- The mask of the first `n` bits, where the shift that makes it may be made. -/
def leadingMask (w n : ℕ) : Option (BitVec w) :=
  if n = 0 then some 0 else (checkedSub w n).bind (checkedShl (BitVec.allOnes w))

def truncated (n : ℕ) (x : BitVec w) : BitVec w := x &&& (BitVec.allOnes w <<< (w - n))

theorem getMsbD_truncated {n : ℕ} (hn : n ≤ w) (x : BitVec w) (i : ℕ) :
    (truncated n x).getMsbD i = (decide (i < n) && x.getMsbD i) := by
  rw [truncated, BitVec.getMsbD_and, BitVec.getMsbD_shiftLeft, BitVec.getMsbD_allOnes, Bool.and_comm]
  congr 1
  exact decide_eq_decide.mpr (by omega)

theorem leadingMask_eq {n : ℕ} (hn : n ≤ w) : leadingMask w n = some (BitVec.allOnes w <<< (w - n)) := by
  unfold leadingMask
  split
  · rename_i hzero
    have hshift : BitVec.allOnes w <<< w = 0 := BitVec.shiftLeft_eq_zero (Nat.le_refl w)
    rw [hzero, Nat.sub_zero, hshift]
  · have hshift : checkedShl (BitVec.allOnes w) (w - n) = some (BitVec.allOnes w <<< (w - n)) := if_pos (by omega)
    rw [checkedSub, if_pos hn, Option.bind_some, hshift]

theorem truncated_eq_iff {n : ℕ} (hn : n ≤ w) (x y : BitVec w) :
    truncated n x = truncated n y ↔ Agrees n x y := by
  constructor
  · intro h i hi
    have hbit := congrArg (fun z => BitVec.getMsbD z i) h
    simpa [getMsbD_truncated hn, hi] using hbit
  · intro h
    apply BitVec.eq_of_getMsbD_eq
    intro i _
    rw [getMsbD_truncated hn, getMsbD_truncated hn]
    by_cases hi : i < n
    · rw [h i hi]
    · rw [decide_eq_false hi, Bool.false_and, Bool.false_and]

theorem agrees_all (x y : BitVec w) : Agrees w x y ↔ x = y := by
  constructor
  · exact fun h => BitVec.eq_of_getMsbD_eq h
  · rintro rfl
    exact fun _ _ => rfl

end MLRunX.BitPrefixes
