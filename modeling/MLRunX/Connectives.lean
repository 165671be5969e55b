import Mathlib.Data.List.Basic

namespace MLRunX.Connectives

/-- A condition is written with connectives, parentheses and the words of its operands. -/
inductive Token (ω : Type)
  | and | or | lParen | rParen
  | word (w : ω)
  deriving DecidableEq, Repr

variable {ω τ : Type}

def Token.isAnd : Token ω → Bool
  | .and => true
  | _ => false

def Token.isOr : Token ω → Bool
  | .or => true
  | _ => false

def Token.isClose : Token ω → Bool
  | .rParen => true
  | _ => false

def level (d : Nat) : Token ω → Nat
  | .lParen => d + 1
  | .rParen => d - 1
  | _ => d

@[simp] theorem level_and (d : Nat) : level d (.and : Token ω) = d := rfl

@[simp] theorem level_or (d : Nat) : level d (.or : Token ω) = d := rfl

@[simp] theorem level_word (d : Nat) (w : ω) : level d (.word w) = d := rfl

@[simp] theorem level_lParen (d : Nat) : level d (.lParen : Token ω) = d + 1 := rfl

@[simp] theorem level_rParen (d : Nat) : level d (.rParen : Token ω) = d - 1 := rfl

/-- The parts of a text between the separators that stand outside of parentheses. -/
def cut (isSep : Token ω → Bool) : Nat → List (Token ω) → List (Token ω) × List (List (Token ω))
  | _, [] => ([], [])
  | d, t :: ts =>
      if d = 0 ∧ isSep t = true then ([], (cut isSep 0 ts).1 :: (cut isSep 0 ts).2)
      else (t :: (cut isSep (level d t) ts).1, (cut isSep (level d t) ts).2)

/-- A text up to the parenthesis that closes it, and what is left. -/
def readGroup : Nat → List (Token ω) → Option (List (Token ω) × List (Token ω))
  | _, [] => none
  | d, t :: ts =>
      if d = 0 ∧ t.isClose = true then some ([], ts)
      else (readGroup (level d t) ts).map (fun r => (t :: r.1, r.2))

/-- What is in the parentheses that a text stands in. -/
def inner? : List (Token ω) → Option (List (Token ω))
  | .lParen :: ts => (readGroup 0 ts).bind (fun r => if r.2.isEmpty then some r.1 else none)
  | _ => none

/-- How values are joined, and the values of the operands. -/
structure Logic (ω τ : Type) where
  both : τ → τ → τ
  either : τ → τ → τ
  operand : List (Token ω) → τ

namespace Logic

variable (L : Logic ω τ)

def joinParts (op : τ → τ → τ) (val : List (Token ω) → τ)
    (parts : List (Token ω) × List (List (Token ω))) : τ :=
  parts.2.foldl (fun v part => op v (val part)) (val parts.1)

def primary (inside : List (Token ω) → τ) (ts : List (Token ω)) : τ := (inner? ts).elim (L.operand ts) inside

def conjunction (inside : List (Token ω) → τ) (ts : List (Token ω)) : τ :=
  joinParts L.both (L.primary inside) (cut Token.isAnd 0 ts)

def disjunction (inside : List (Token ω) → τ) (ts : List (Token ω)) : τ :=
  joinParts L.either (L.conjunction inside) (cut Token.isOr 0 ts)

def valueAt : Nat → List (Token ω) → τ
  | 0, ts => L.operand ts
  | n + 1, ts => L.disjunction (valueAt n) ts

/-- The value of a text, in which AND binds tighter than OR and parentheses say otherwise. -/
def value (ts : List (Token ω)) : τ := L.valueAt (ts.length + 1) ts

end Logic

/-! What stands in parentheses is shorter, so the fuel does not matter. -/

theorem length_cut (isSep : Token ω → Bool) (d : Nat) (ts : List (Token ω)) :
    (cut isSep d ts).1.length ≤ ts.length ∧ ∀ part ∈ (cut isSep d ts).2, part.length ≤ ts.length := by
  induction ts generalizing d with
  | nil => simp [cut]
  | cons t ts ih =>
      rw [cut]
      split
      · refine ⟨Nat.zero_le _, fun part hpart => ?_⟩
        rcases List.mem_cons.mp hpart with rfl | hpart
        · exact Nat.le_succ_of_le (ih 0).1
        · exact Nat.le_succ_of_le ((ih 0).2 part hpart)
      · refine ⟨Nat.succ_le_succ (ih _).1, fun part hpart => ?_⟩
        exact Nat.le_succ_of_le ((ih _).2 part hpart)

theorem length_readGroup {d : Nat} {ts us rest : List (Token ω)} (h : readGroup d ts = some (us, rest)) :
    us.length + rest.length < ts.length := by
  induction ts generalizing d us with
  | nil => cases h
  | cons t ts ih =>
      rw [readGroup] at h
      split at h
      · obtain ⟨rfl, rfl⟩ := Prod.mk.inj (Option.some.inj h)
        simp
      · obtain ⟨⟨vs, rest'⟩, hread, hpair⟩ := Option.map_eq_some_iff.mp h
        obtain ⟨rfl, rfl⟩ := Prod.mk.inj hpair
        have hlt : vs.length + rest'.length < ts.length := ih hread
        simp only [List.length_cons]
        omega

theorem length_inner {ts us : List (Token ω)} (h : inner? ts = some us) : us.length < ts.length := by
  rw [inner?.eq_def] at h
  split at h
  · obtain ⟨⟨vs, rest⟩, hread, hend⟩ := Option.bind_eq_some_iff.mp h
    split at hend
    · obtain rfl := Option.some.inj hend
      have hlt := length_readGroup hread
      simp only [List.length_cons]
      omega
    · cases hend
  · cases h

section Fuel

variable {L : Logic ω τ} {inside inside' : List (Token ω) → τ} {ts : List (Token ω)}

theorem joinParts_congr {op : τ → τ → τ} {val val' : List (Token ω) → τ}
    {parts : List (Token ω) × List (List (Token ω))} (hfirst : val parts.1 = val' parts.1)
    (hrest : ∀ part ∈ parts.2, val part = val' part) :
    Logic.joinParts op val parts = Logic.joinParts op val' parts := by
  rw [Logic.joinParts, Logic.joinParts, hfirst]
  apply List.foldl_ext
  intro v part hpart
  rw [hrest part hpart]

theorem primary_congr {n : Nat} (hn : ts.length ≤ n)
    (h : ∀ us : List (Token ω), us.length < n → inside us = inside' us) :
    L.primary inside ts = L.primary inside' ts := by
  rw [Logic.primary, Logic.primary]
  cases hinner : inner? ts with
  | none => rfl
  | some us => exact h us (Nat.lt_of_lt_of_le (length_inner hinner) hn)

theorem disjunction_congr {n : Nat} (hn : ts.length ≤ n)
    (h : ∀ us : List (Token ω), us.length < n → inside us = inside' us) :
    L.disjunction inside ts = L.disjunction inside' ts := by
  have hconjunction : ∀ us : List (Token ω), us.length ≤ n →
      L.conjunction inside us = L.conjunction inside' us := by
    intro us hus
    obtain ⟨hfirst, hrest⟩ := length_cut Token.isAnd 0 us
    apply joinParts_congr
    · exact primary_congr (Nat.le_trans hfirst hus) h
    · exact fun part hpart => primary_congr (Nat.le_trans (hrest part hpart) hus) h
  obtain ⟨hfirst, hrest⟩ := length_cut Token.isOr 0 ts
  apply joinParts_congr
  · exact hconjunction _ (Nat.le_trans hfirst hn)
  · exact fun part hpart => hconjunction part (Nat.le_trans (hrest part hpart) hn)

theorem valueAt_fuel {n m : Nat} (hn : ts.length < n) (hm : ts.length < m) : L.valueAt n ts = L.valueAt m ts := by
  induction n generalizing m ts with
  | zero => exact absurd hn (Nat.not_lt_zero _)
  | succ n ih =>
      obtain ⟨m, rfl⟩ := Nat.exists_eq_succ_of_ne_zero (Nat.ne_of_gt (Nat.zero_lt_of_lt hm))
      apply disjunction_congr (Nat.le_refl _)
      intro us hus
      exact ih (by omega) (by omega)

end Fuel

/-! Texts whose parentheses match. -/

inductive Balanced : List (Token ω) → Prop
  | nil : Balanced []
  | and {ts} (h : Balanced ts) : Balanced (.and :: ts)
  | or {ts} (h : Balanced ts) : Balanced (.or :: ts)
  | word {w ts} (h : Balanced ts) : Balanced (.word w :: ts)
  | group {us ts} (hus : Balanced us) (h : Balanced ts) : Balanced (.lParen :: us ++ .rParen :: ts)

/-- Texts with no connective outside of parentheses. -/
inductive Flat : List (Token ω) → Prop
  | nil : Flat []
  | word {w ts} (h : Flat ts) : Flat (.word w :: ts)
  | group {us ts} (hus : Balanced us) (h : Flat ts) : Flat (.lParen :: us ++ .rParen :: ts)

theorem Flat.balanced {ts : List (Token ω)} (h : Flat ts) : Balanced ts := by
  induction h with
  | nil => exact .nil
  | word h ih => exact .word ih
  | group hus h ih => exact .group hus ih

theorem Balanced.append {ts us : List (Token ω)} (h : Balanced ts) (hus : Balanced us) : Balanced (ts ++ us) := by
  induction h with
  | nil => exact hus
  | and h ih => exact .and ih
  | or h ih => exact .or ih
  | word h ih => exact .word ih
  | group hvs h ihvs ih =>
      rw [List.append_assoc, List.cons_append]
      exact .group hvs ih

theorem Flat.append {ts us : List (Token ω)} (h : Flat ts) (hus : Flat us) : Flat (ts ++ us) := by
  induction h with
  | nil => exact hus
  | word h ih => exact .word ih
  | group hvs h ih =>
      rw [List.append_assoc, List.cons_append]
      exact .group hvs ih

section Cutting

variable {isSep : Token ω → Bool} {ts : List (Token ω)}

theorem Balanced.cut_deep (h : Balanced ts) (d : Nat) (rest : List (Token ω)) :
    cut isSep (d + 1) (ts ++ rest) = (ts ++ (cut isSep (d + 1) rest).1, (cut isSep (d + 1) rest).2) := by
  induction h generalizing d rest with
  | nil => rfl
  | and h ih | or h ih | word h ih => simp [cut, ih]
  | group hus h ihus ih =>
      rw [List.append_assoc, List.cons_append, List.cons_append, cut, if_neg (by simp), level_lParen, ihus, cut,
        if_neg (by simp), level_rParen, Nat.add_sub_cancel, ih]
      simp

theorem Flat.cut_append (h : Flat ts) (hword : ∀ w, isSep (.word w) = false) (hopen : isSep .lParen = false)
    (rest : List (Token ω)) : cut isSep 0 (ts ++ rest) = (ts ++ (cut isSep 0 rest).1, (cut isSep 0 rest).2) := by
  induction h with
  | nil => rfl
  | word h ih =>
      rw [List.cons_append, cut, if_neg (by simp [hword]), level_word, ih]
      rfl
  | group hus h ih =>
      rw [List.append_assoc, List.cons_append, List.cons_append, cut, if_neg (by simp [hopen]),
        level_lParen, hus.cut_deep, cut, if_neg (by simp), level_rParen, Nat.zero_add, Nat.sub_self, ih]
      simp

theorem Balanced.readGroup_append (h : Balanced ts) (d : Nat) (rest : List (Token ω)) :
    readGroup d (ts ++ rest) = (readGroup d rest).map (fun r => (ts ++ r.1, r.2)) := by
  induction h generalizing d rest with
  | nil => simp
  | and h ih | or h ih | word h ih => simp [readGroup, Token.isClose, ih, Function.comp_def]
  | group hus h ihus ih =>
      rw [List.append_assoc, List.cons_append, List.cons_append, readGroup,
        if_neg (by simp [Token.isClose]), level_lParen,
        ihus, readGroup, if_neg (by simp), level_rParen, Nat.add_sub_cancel, ih]
      simp [Option.map_map, Function.comp_def]

theorem Balanced.inner_group (h : Balanced ts) : inner? (.lParen :: ts ++ [.rParen]) = some ts := by
  rw [List.cons_append, inner?, h.readGroup_append]
  simp [readGroup, Token.isClose]

end Cutting

/-! The values of texts whose parentheses match. -/

section Values

variable {L : Logic ω τ} {ts us : List (Token ω)}

theorem Flat.cut_self (h : Flat ts) {isSep : Token ω → Bool} (hword : ∀ w, isSep (.word w) = false)
    (hopen : isSep .lParen = false) : cut isSep 0 ts = (ts, []) := by
  have hcut := h.cut_append hword hopen []
  simpa [cut] using hcut

theorem value_flat (h : Flat ts) {n : Nat} (hn : ts.length ≤ n) : L.value ts = L.primary (L.valueAt n) ts := by
  have hor : cut Token.isOr 0 ts = (ts, []) := h.cut_self (fun _ => rfl) rfl
  have hand : cut Token.isAnd 0 ts = (ts, []) := h.cut_self (fun _ => rfl) rfl
  have hself : L.value ts = L.primary (L.valueAt ts.length) ts := by
    rw [Logic.value, Logic.valueAt, Logic.disjunction, hor]
    change Logic.joinParts _ _ (cut Token.isAnd 0 ts) = _
    rw [hand]
    rfl
  rw [hself]
  apply primary_congr (Nat.le_refl _)
  intro us hus
  exact valueAt_fuel hus (by omega)

theorem value_group (h : Balanced ts) : L.value (.lParen :: ts ++ [.rParen]) = L.value ts := by
  rw [value_flat (.group h .nil) (Nat.le_refl _), Logic.primary, h.inner_group]
  apply valueAt_fuel
  · rw [List.length_append, List.length_cons]
    omega
  · exact Nat.lt_succ_self _

def joinedByAnd (first : List (Token ω)) (others : List (List (Token ω))) : List (Token ω) :=
  first ++ others.flatMap (fun part => .and :: part)

theorem cut_joinedByAnd {first : List (Token ω)} {others : List (List (Token ω))} (hfirst : Flat first)
    (hothers : ∀ part ∈ others, Flat part) :
    cut Token.isAnd 0 (joinedByAnd first others) = (first, others) ∧
      cut Token.isOr 0 (joinedByAnd first others) = (joinedByAnd first others, []) := by
  induction others generalizing first with
  | nil =>
      rw [joinedByAnd, List.flatMap_nil, List.append_nil]
      exact ⟨hfirst.cut_self (fun _ => rfl) rfl, hfirst.cut_self (fun _ => rfl) rfl⟩
  | cons part others ih =>
      obtain ⟨hand, hor⟩ := ih (hothers part List.mem_cons_self) (fun p hp => hothers p (List.mem_cons_of_mem _ hp))
      have htext : joinedByAnd first (part :: others) = first ++ .and :: joinedByAnd part others := by
        simp [joinedByAnd]
      rw [htext, hfirst.cut_append (fun _ => rfl) rfl, hfirst.cut_append (fun _ => rfl) rfl]
      simp [cut, Token.isAnd, Token.isOr, hand, hor]

theorem value_joinedByAnd {first : List (Token ω)} {others : List (List (Token ω))} (hfirst : Flat first)
    (hothers : ∀ part ∈ others, Flat part) :
    L.value (joinedByAnd first others) = others.foldl (fun v part => L.both v (L.value part)) (L.value first) := by
  obtain ⟨hand, hor⟩ := cut_joinedByAnd hfirst hothers
  have hlength := length_cut Token.isAnd 0 (joinedByAnd first others)
  rw [hand] at hlength
  rw [Logic.value, Logic.valueAt, Logic.disjunction, hor]
  change Logic.joinParts _ _ (cut Token.isAnd 0 (joinedByAnd first others)) = _
  rw [hand, Logic.joinParts, value_flat hfirst hlength.1]
  apply List.foldl_ext
  intro v part hpart
  rw [value_flat (hothers part hpart) (hlength.2 part hpart)]

theorem value_and (h : Flat ts) (hus : Flat us) : L.value (ts ++ .and :: us) =
    L.both (L.value ts) (L.value us) := by
  have hjoined := @value_joinedByAnd _ _ L ts [us] h (List.forall_mem_singleton.mpr hus)
  simpa [joinedByAnd] using hjoined

theorem value_or (h : Flat ts) (hus : Flat us) : L.value (ts ++ .or :: us) =
    L.either (L.value ts) (L.value us) := by
  have hcut : cut Token.isOr 0 (ts ++ .or :: us) = (ts, [us]) := by
    have hleft := @Flat.cut_append _ Token.isOr _ h (fun _ => rfl) rfl (.or :: us)
    have hright : cut Token.isOr 0 us = (us, []) := hus.cut_self (fun _ => rfl) rfl
    simpa [cut, Token.isOr, hright] using hleft
  have hpart : ∀ vs : List (Token ω), Flat vs → vs.length ≤ (ts ++ .or :: us).length →
      L.conjunction (L.valueAt (ts ++ .or :: us).length) vs = L.value vs := by
    intro vs hvs hlength
    rw [value_flat hvs hlength, Logic.conjunction, hvs.cut_self (fun _ => rfl) rfl]
    rfl
  rw [Logic.value, Logic.valueAt, Logic.disjunction, hcut]
  change L.either (L.conjunction _ ts) (L.conjunction _ us) = _
  rw [hpart ts h (by simp), hpart us hus (by simp; omega)]

end Values

end MLRunX.Connectives
