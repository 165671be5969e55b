import MLRunX.Conditions
import MLRunX.Text

namespace MLRunX.LikePatterns

open Conditions

/-- A character that stands for others in a pattern. -/
def isWildcard (c : Char) : Bool := c == '%' || c == '_'

def maxPatternBytes : ℕ := 50000

/-- LIKE refuses a pattern that is too long. -/
def patternTooComplex (pattern : String) : Bool := maxPatternBytes < Text.byteLength pattern

def lower (cs : List Char) : List Char := cs.map Char.toLower

theorem matchesPattern_percent (ps cs : List Char) :
    matchesPattern ('%' :: ps) cs = true ↔ ∃ t, t <:+ cs ∧ matchesPattern ps t = true := by
  rw [matchesPattern, if_pos rfl, List.any_eq_true]
  simp only [List.mem_tails]

theorem matchesPattern_all (cs : List Char) : matchesPattern ['%'] cs = true :=
  (matchesPattern_percent [] cs).mpr ⟨[], List.nil_suffix, rfl⟩

theorem matchesPattern_append {ps : List Char} (h : ∀ p ∈ ps, isWildcard p = false) (rest cs : List Char) :
    matchesPattern (ps ++ rest) cs = true ↔
      ∃ ds es, cs = ds ++ es ∧ lower ds = lower ps ∧ matchesPattern rest es = true := by
  induction ps generalizing cs with
  | nil =>
      constructor
      · intro hmatch
        exact ⟨[], cs, rfl, rfl, hmatch⟩
      · rintro ⟨ds, es, rfl, hds, hmatch⟩
        obtain rfl := List.map_eq_nil_iff.mp hds
        exact hmatch
  | cons p ps ih =>
      have hp := h p List.mem_cons_self
      rw [isWildcard, Bool.or_eq_false_iff, beq_eq_false_iff_ne, beq_eq_false_iff_ne] at hp
      have ih := ih (fun q hq => h q (List.mem_cons_of_mem _ hq))
      rw [List.cons_append, matchesPattern, if_neg hp.1]
      cases cs with
      | nil =>
          constructor
          · intro hmatch
            cases hmatch
          · rintro ⟨ds, es, hcs, hds, -⟩
            obtain ⟨rfl, -⟩ := List.append_eq_nil_iff.mp hcs.symm
            cases hds
      | cons c cs =>
          have hunder : (p == '_') = false := beq_eq_false_iff_ne.mpr hp.2
          simp only [hunder, Bool.false_or, Bool.and_eq_true, beq_iff_eq, ih]
          constructor
          · rintro ⟨hc, ds, es, rfl, hds, hmatch⟩
            refine ⟨c :: ds, es, rfl, ?_, hmatch⟩
            rw [lower, List.map_cons, ← lower, hds, ← hc]
            rfl
          · rintro ⟨ds, es, hcs, hds, hmatch⟩
            cases ds with
            | nil => cases hds
            | cons d ds =>
                obtain ⟨rfl, rfl⟩ := List.cons.inj hcs
                obtain ⟨hd, htail⟩ := List.cons.inj hds
                exact ⟨hd.symm, ds, es, rfl, htail, hmatch⟩

/-- Between two signs for any text, a pattern without wildcards asks for a part of
the text that is equal to it but for the case of letters. -/
theorem matchesPattern_infix {ps : List Char} (h : ∀ p ∈ ps, isWildcard p = false) (cs : List Char) :
    matchesPattern ('%' :: (ps ++ ['%'])) cs = true ↔ lower ps <:+: lower cs := by
  rw [matchesPattern_percent]
  constructor
  · rintro ⟨t, ⟨before, rfl⟩, hmatch⟩
    obtain ⟨ds, es, rfl, hds, -⟩ := (matchesPattern_append h ['%'] t).mp hmatch
    refine ⟨lower before, lower es, ?_⟩
    rw [← hds]
    simp [lower]
  · rintro ⟨before, behind, hsplit⟩
    rw [List.append_assoc] at hsplit
    obtain ⟨as, bs, rfl, has, hbs⟩ := List.map_eq_append_iff.mp hsplit.symm
    obtain ⟨ds, es, rfl, hds, hes⟩ := List.map_eq_append_iff.mp hbs
    exact ⟨ds ++ es, List.suffix_append _ _,
      (matchesPattern_append h ['%'] _).mpr ⟨ds, es, rfl, hds, matchesPattern_all es⟩⟩

def fill (ps : List Char) : List Char := ps.map (fun p => if isWildcard p then 'a' else p)

theorem matchesPattern_fill (ps rest : List Char) (h : matchesPattern rest [] = true) :
    matchesPattern (ps ++ rest) (fill ps) = true := by
  induction ps with
  | nil => exact h
  | cons p ps ih =>
      rw [List.cons_append, fill, List.map_cons, ← fill]
      by_cases hpercent : p = '%'
      · rw [hpercent, matchesPattern_percent]
        exact ⟨fill ps, List.suffix_cons _ _, ih⟩
      · rw [matchesPattern, if_neg hpercent]
        by_cases hunder : p = '_'
        · simp [hunder, ih]
        · simp [isWildcard, hpercent, hunder, ih]

theorem eq_of_toLower_eq {p q : Char} (h : q.toLower = p) (hp : p.toNat < 97) : q = p := by
  delta Char.toLower at h
  split at h
  · rename_i hupper
    obtain ⟨ha, hz⟩ := hupper
    have hval := congrArg (fun c : Char => c.val.toNat) h
    rw [ge_iff_le, UInt32.le_iff_toNat_le] at ha
    rw [UInt32.le_iff_toNat_le] at hz
    simp [UInt32.toNat_add] at hval ha hz
    omega
  · exact h

theorem toNat_wildcard {p : Char} (h : isWildcard p = true) : p.toNat < 97 ∧ p ≠ 'a' := by
  rcases Bool.or_eq_true_iff.mp h with h | h <;> rw [beq_iff_eq.mp h] <;> decide

theorem not_infix_fill {ps : List Char} {p : Char} (hp : p ∈ ps) (hwild : isWildcard p = true) :
    ¬ lower ps <:+: lower (fill ps) := by
  intro h
  have heq : lower ps = lower (fill ps) := h.eq_of_length (by simp [lower, fill])
  have hmem : p.toLower ∈ lower ps := List.mem_map_of_mem hp
  obtain ⟨hsmall, hne⟩ := toNat_wildcard hwild
  have hkeep : p.toLower = p := by
    rcases Bool.or_eq_true_iff.mp hwild with h | h <;> rw [beq_iff_eq.mp h] <;> rfl
  rw [heq, hkeep, lower, fill, List.map_map] at hmem
  obtain ⟨q, -, hq⟩ := List.mem_map.mp hmem
  have hfill : (if isWildcard q then 'a' else q) = p := eq_of_toLower_eq hq hsmall
  split at hfill
  · exact hne hfill.symm
  · rename_i hplain
    rw [hfill] at hplain
    exact hplain hwild

end MLRunX.LikePatterns
