import Mathlib.Algebra.Order.Group.Nat
import Mathlib.Data.List.Forall2

namespace MLRunX.FixedWidth

/-- The last digits of a number, with zeros in front where it has fewer. -/
def digits : ℕ → ℕ → List Char
  | 0, _ => []
  | width + 1, n => digits width (n / 10) ++ [Nat.digitChar (n % 10)]

theorem length_digits (width n : ℕ) : (digits width n).length = width := by
  induction width generalizing n with
  | zero => rfl
  | succ width ih => rw [digits, List.length_append, ih, List.length_singleton]

theorem digitChar_inj {a b : ℕ} (ha : a < 10) (hb : b < 10) : Nat.digitChar a = Nat.digitChar b ↔ a = b := by
  have h : ∀ a < 10, ∀ b < 10, Nat.digitChar a = Nat.digitChar b ↔ a = b := by decide
  exact h a ha b hb

theorem digitChar_lt {a b : ℕ} (ha : a < 10) (hb : b < 10) : Nat.digitChar a < Nat.digitChar b ↔ a < b := by
  have h : ∀ a < 10, ∀ b < 10, Nat.digitChar a < Nat.digitChar b ↔ a < b := by decide
  exact h a ha b hb

variable {α : Type} [LT α]

theorem append_lt_append {as bs cs ds : List α} [Std.Irrefl (fun a b : α => a < b)] (h : as.length = cs.length) :
    as ++ bs < cs ++ ds ↔ as < cs ∨ as = cs ∧ bs < ds := by
  induction as generalizing cs with
  | nil =>
      obtain rfl := List.length_eq_zero_iff.mp h.symm
      simp
  | cons a as ih =>
      cases cs with
      | nil => cases h
      | cons c cs =>
          rw [List.cons_append, List.cons_append, List.cons_lt_cons_iff, List.cons_lt_cons_iff,
            ih (Nat.succ.inj h), List.cons.injEq]
          constructor
          · rintro (hlt | ⟨rfl, hlt | ⟨rfl, hlt⟩⟩)
            · exact .inl (.inl hlt)
            · exact .inl (.inr ⟨rfl, hlt⟩)
            · exact .inr ⟨⟨rfl, rfl⟩, hlt⟩
          · rintro ((hlt | ⟨rfl, hlt⟩) | ⟨⟨rfl, rfl⟩, hlt⟩)
            · exact .inl hlt
            · exact .inr ⟨rfl, .inl hlt⟩
            · exact .inr ⟨rfl, .inr ⟨rfl, hlt⟩⟩

theorem append_eq_append {as bs cs ds : List Char} (h : as.length = cs.length) :
    as ++ bs = cs ++ ds ↔ as = cs ∧ bs = ds := by
  constructor
  · intro heq
    exact List.append_inj heq h
  · rintro ⟨rfl, rfl⟩
    rfl

theorem digits_inj {width n m : ℕ} (hn : n < 10 ^ width) (hm : m < 10 ^ width) :
    digits width n = digits width m ↔ n = m := by
  induction width generalizing n m with
  | zero =>
      rw [pow_zero] at hn hm
      simp only [digits, true_iff]
      omega
  | succ width ih =>
      rw [pow_succ] at hn hm
      rw [digits, digits, append_eq_append (by rw [length_digits, length_digits]),
        ih (by omega) (by omega), List.singleton_inj, digitChar_inj (by omega) (by omega)]
      omega

theorem digits_lt {width n m : ℕ} (hn : n < 10 ^ width) (hm : m < 10 ^ width) :
    digits width n < digits width m ↔ n < m := by
  induction width generalizing n m with
  | zero =>
      rw [pow_zero] at hn hm
      have heq : n = m := by omega
      simp [digits, heq]
  | succ width ih =>
      rw [pow_succ] at hn hm
      rw [digits, digits, append_lt_append (by rw [length_digits, length_digits]), ih (by omega) (by omega),
        digits_inj (by omega) (by omega), List.cons_lt_cons_iff, digitChar_lt (by omega) (by omega)]
      simp only [List.lt_irrefl, and_false, or_false]
      omega

abbrev Columns := List (List Char × ℕ)

def write : Columns → List ℕ → List Char
  | (before, width) :: columns, n :: ns => before ++ digits width n ++ write columns ns
  | _, _ => []

/-- Every number has no more digits than its column. -/
def Fits (columns : Columns) (ns : List ℕ) : Prop := List.Forall₂ (fun column n => n < 10 ^ column.2) columns ns

theorem write_inj {columns : Columns} {ns ms : List ℕ} (hns : Fits columns ns) (hms : Fits columns ms) :
    write columns ns = write columns ms ↔ ns = ms := by
  induction hns generalizing ms with
  | nil =>
      cases hms
      simp
  | cons hn _ ih =>
      cases hms with
      | cons hm hms =>
          rw [write, write, List.append_assoc, List.append_assoc, List.append_right_inj,
            append_eq_append (by rw [length_digits, length_digits]), digits_inj hn hm, ih hms,
            List.cons.injEq]

theorem write_lt {columns : Columns} {ns ms : List ℕ} (hns : Fits columns ns) (hms : Fits columns ms) :
    write columns ns < write columns ms ↔ ns < ms := by
  induction hns generalizing ms with
  | nil =>
      cases hms
      simp [write]
  | cons hn _ ih =>
      cases hms with
      | cons hm hms =>
          rw [write, write, List.append_assoc, List.append_assoc, append_lt_append rfl,
            append_lt_append (by rw [length_digits, length_digits]), digits_lt hn hm, digits_inj hn hm, ih hms,
            List.cons_lt_cons_iff]
          exact ⟨fun h => (h.resolve_left (List.lt_irrefl _)).2, fun h => .inr ⟨rfl, h⟩⟩

end MLRunX.FixedWidth
