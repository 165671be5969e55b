import Mathlib.Data.List.TakeWhile
import MLRunX.JsonText

namespace MLRunX.JsonBounds

open JsonText

variable {cs ds rest : List Char} {n m : Nat}

theorem skipBlanks_front {c : Char} {cs' : List Char} (h : skipBlanks cs = c :: cs') (ds : List Char) :
    skipBlanks (cs ++ ds) = c :: (cs' ++ ds) := by
  rw [skipBlanks] at h
  rw [skipBlanks, List.dropWhile_append, h]
  rfl

theorem head_skipBlanks {c : Char} (h : (skipBlanks cs).head? = some c) (ds : List Char) :
    (skipBlanks (cs ++ ds)).head? = some c ∧ (skipBlanks (cs ++ ds)).tail = (skipBlanks cs).tail ++ ds := by
  obtain ⟨cs', hcs⟩ := List.head?_eq_some_iff.mp h
  rw [skipBlanks_front hcs, hcs]
  exact ⟨rfl, rfl⟩

theorem letters_front {ls : List Letter} (h : letters cs = some (ls, rest)) (ds : List Char) :
    letters (cs ++ ds) = some (ls, rest ++ ds) := by
  induction cs using letters.induct generalizing ls rest with
  | case1 => cases h
  | case2 cs =>
      rw [letters.eq_def] at h ⊢
      obtain ⟨rfl, rfl⟩ := Prod.mk.inj (Option.some.inj h)
      rfl
  | case3 hquote =>
      rw [letters.eq_def] at h
      cases h
  | case4 a b c d cs hquote ih =>
      rw [letters.eq_def] at h
      simp only [if_neg hquote, ↓reduceIte, Option.bind_eq_bind, Option.bind_eq_some_iff] at h
      obtain ⟨unit, hunit, ⟨ls', rest'⟩, hls, heq⟩ := h
      obtain ⟨rfl, rfl⟩ := Prod.mk.inj (Option.some.inj heq)
      rw [letters.eq_def]
      simp only [List.cons_append, if_neg hquote, ↓reduceIte, hunit, ih hls, Option.bind_eq_bind, Option.bind_some]
  | case5 cs =>
      rw [letters.eq_def] at h
      simp only [Char.reduceEq, ↓reduceIte, reduceCtorEq] at h
  | case6 e cs hu hquote ih =>
      rw [letters.eq_def] at h
      simp only [if_neg hquote, ↓reduceIte, if_neg hu, Option.bind_eq_bind, Option.bind_eq_some_iff] at h
      obtain ⟨short, hshort, ⟨ls', rest'⟩, hls, heq⟩ := h
      obtain ⟨rfl, rfl⟩ := Prod.mk.inj (Option.some.inj heq)
      rw [letters.eq_def]
      simp only [List.cons_append, if_neg hquote, ↓reduceIte, if_neg hu, hshort, ih hls, Option.bind_eq_bind,
        Option.bind_some]
  | case7 c cs hquote hback hplain ih =>
      rw [letters.eq_def] at h
      simp only [if_neg hquote, if_neg hback, dif_pos hplain, Option.bind_eq_bind, Option.bind_eq_some_iff] at h
      obtain ⟨⟨ls', rest'⟩, hls, heq⟩ := h
      obtain ⟨rfl, rfl⟩ := Prod.mk.inj (Option.some.inj heq)
      rw [letters.eq_def]
      simp only [List.cons_append, if_neg hquote, if_neg hback, dif_pos hplain, ih hls, Option.bind_eq_bind,
        Option.bind_some]
  | case8 c cs hquote hback hplain =>
      rw [letters.eq_def] at h
      simp only [if_neg hquote, if_neg hback, dif_neg hplain, reduceCtorEq] at h

theorem number_front {d : Doc} (h : number cs = some (d, rest)) (hrest : rest ≠ []) (ds : List Char) :
    number (cs ++ ds) = some (d, rest ++ ds) := by
  rw [number] at h
  split at h
  · rename_i hnumber
    obtain ⟨rfl, rfl⟩ := Prod.mk.inj (Option.some.inj h)
    have htake : (cs ++ ds).takeWhile isNumberChar = cs.takeWhile isNumberChar := by
      rw [List.takeWhile_append, if_neg]
      intro hlength
      apply hrest
      rw [← List.length_eq_zero_iff]
      have hsum := congrArg List.length (List.takeWhile_append_dropWhile (p := isNumberChar) (l := cs))
      rw [List.length_append] at hsum
      omega
    have hdrop : (cs ++ ds).dropWhile isNumberChar = cs.dropWhile isNumberChar ++ ds := by
      rw [List.dropWhile_append, if_neg]
      rwa [List.isEmpty_iff]
    have hnumber' : isNumber ((cs ++ ds).takeWhile isNumberChar) = true := by rwa [htake]
    rw [number, dif_pos hnumber', hdrop]
    simp only [htake]
  · cases h

theorem number_number {d : Doc} (h : number cs = some (d, rest)) : ∃ n, d = .number n := by
  rw [number] at h
  split at h
  · exact ⟨_, (Prod.mk.inj (Option.some.inj h)).1.symm⟩
  · cases h

theorem word_front {w : List Char} {d e : Doc} (h : word w d cs = some (e, rest)) (ds : List Char) :
    word w d (cs ++ ds) = some (e, rest ++ ds) := by
  rw [word] at h
  split at h
  · rename_i hword
    obtain ⟨rfl, rfl⟩ := Prod.mk.inj (Option.some.inj h)
    obtain ⟨tail, rfl⟩ := List.isPrefixOf_iff_prefix.mp hword
    rw [word, if_pos]
    · rw [List.append_assoc, List.drop_left, List.drop_left]
    · rw [List.isPrefixOf_iff_prefix, List.append_assoc]
      exact List.prefix_append _ _
  · cases h

/-- A document that does not end where a number might go on. -/
def Bounded (d : Doc) (rest : List Char) : Prop := rest ≠ [] ∨ ∀ n, d ≠ .number n

/-- What is read of the front of a text is read of the whole text, with any more fuel. -/
structure Fronts (n : Nat) : Prop where
  value : ∀ {cs rest : List Char} {d : Doc}, value n cs = some (d, rest) → Bounded d rest →
    ∀ m, n ≤ m → ∀ ds, value m (cs ++ ds) = some (d, rest ++ ds)
  items : ∀ {cs rest : List Char} {xs : List Doc}, items n cs = some (xs, rest) →
    ∀ m, n ≤ m → ∀ ds, items m (cs ++ ds) = some (xs, rest ++ ds)
  field : ∀ {cs rest : List Char} {f : List Letter × Doc}, field n cs = some (f, rest) → rest ≠ [] →
    ∀ m, n ≤ m → ∀ ds, field m (cs ++ ds) = some (f, rest ++ ds)
  fields : ∀ {cs rest : List Char} {fs : List (List Letter × Doc)}, fields n cs = some (fs, rest) →
    ∀ m, n ≤ m → ∀ ds, fields m (cs ++ ds) = some (fs, rest ++ ds)

theorem items_ne_nil {xs : List Doc} (h : items n cs = some (xs, rest)) : cs ≠ [] := by
  rintro rfl
  cases n with
  | zero => cases h
  | succ n => cases h

theorem fields_ne_nil {fs : List (List Letter × Doc)} (h : fields n cs = some (fs, rest)) : cs ≠ [] := by
  rintro rfl
  cases n with
  | zero => cases h
  | succ n => cases h

theorem value_starts {d : Doc} (h : value n cs = some (d, rest)) : ∃ c cs', skipBlanks cs = c :: cs' := by
  cases n with
  | zero => cases h
  | succ n =>
      rw [JsonText.value] at h
      cases hskip : skipBlanks cs with
      | nil =>
          rw [hskip] at h
          cases h
      | cons c cs' => exact ⟨c, cs', rfl⟩

theorem field_starts {f : List Letter × Doc} (h : field n cs = some (f, rest)) :
    ∃ c cs', skipBlanks cs = c :: cs' := by
  cases n with
  | zero => cases h
  | succ n =>
      rw [JsonText.field] at h
      cases hskip : skipBlanks cs with
      | nil =>
          rw [hskip] at h
          cases h
      | cons c cs' => exact ⟨c, cs', rfl⟩

theorem head_ne {k : Char} (hstarts : ∃ c cs', skipBlanks cs = c :: cs') (h : ¬ (skipBlanks cs).head? = some k)
    (ds : List Char) : ¬ (skipBlanks (cs ++ ds)).head? = some k := by
  obtain ⟨c, cs', hskip⟩ := hstarts
  rw [hskip] at h
  rw [skipBlanks_front hskip]
  exact h

theorem value_front (ih : Fronts n) {d : Doc} (h : value (n + 1) cs = some (d, rest)) (hd : Bounded d rest)
    (hle : n ≤ m) (ds : List Char) : value (m + 1) (cs ++ ds) = some (d, rest ++ ds) := by
  rw [JsonText.value] at h ⊢
  obtain ⟨c, cs', hskip⟩ : ∃ c cs', skipBlanks cs = c :: cs' := by
    cases hskip : skipBlanks cs with
    | nil =>
        rw [hskip] at h
        cases h
    | cons c cs' => exact ⟨c, cs', rfl⟩
  rw [hskip] at h
  rw [skipBlanks_front hskip]
  dsimp only at h ⊢
  by_cases hquote : c = '"'
  · rw [if_pos hquote] at h ⊢
    obtain ⟨⟨ls, rest'⟩, hls, heq⟩ := Option.map_eq_some_iff.mp h
    obtain ⟨rfl, rfl⟩ := Prod.mk.inj heq
    rw [letters_front hls]
    rfl
  rw [if_neg hquote] at h ⊢
  by_cases hopen : c = '['
  · rw [if_pos hopen] at h ⊢
    by_cases hempty : (skipBlanks cs').head? = some ']'
    · rw [if_pos hempty] at h
      obtain ⟨rfl, rfl⟩ := Prod.mk.inj (Option.some.inj h)
      rw [if_pos (head_skipBlanks hempty ds).1, (head_skipBlanks hempty ds).2]
    · rw [if_neg hempty] at h
      simp only [Option.bind_eq_bind, Option.bind_eq_some_iff] at h
      obtain ⟨⟨d', cs₁⟩, hvalue, ⟨xs, cs₂⟩, hitems, heq⟩ := h
      obtain ⟨rfl, rfl⟩ := Prod.mk.inj (Option.some.inj heq)
      rw [if_neg (head_ne (value_starts hvalue) hempty ds), ih.value hvalue (.inl (items_ne_nil hitems)) m hle ds]
      simp only [Option.bind_eq_bind, Option.bind_some, ih.items hitems m hle ds]
  rw [if_neg hopen] at h ⊢
  by_cases hbrace : c = '\x7b'
  · rw [if_pos hbrace] at h ⊢
    by_cases hempty : (skipBlanks cs').head? = some '\x7d'
    · rw [if_pos hempty] at h
      obtain ⟨rfl, rfl⟩ := Prod.mk.inj (Option.some.inj h)
      rw [if_pos (head_skipBlanks hempty ds).1, (head_skipBlanks hempty ds).2]
    · rw [if_neg hempty] at h
      simp only [Option.bind_eq_bind, Option.bind_eq_some_iff] at h
      obtain ⟨⟨f, cs₁⟩, hfield, ⟨fs, cs₂⟩, hfields, heq⟩ := h
      obtain ⟨rfl, rfl⟩ := Prod.mk.inj (Option.some.inj heq)
      rw [if_neg (head_ne (field_starts hfield) hempty ds), ih.field hfield (fields_ne_nil hfields) m hle ds]
      simp only [Option.bind_eq_bind, Option.bind_some, ih.fields hfields m hle ds]
  rw [if_neg hbrace] at h ⊢
  split_ifs at h ⊢
  · exact word_front h ds
  · exact word_front h ds
  · exact word_front h ds
  · rcases hd with hrest | hnumber
    · exact number_front h hrest ds
    · obtain ⟨n, rfl⟩ := number_number h
      exact absurd rfl (hnumber n)

theorem items_front (ih : Fronts n) {xs : List Doc} (h : items (n + 1) cs = some (xs, rest)) (hle : n ≤ m)
    (ds : List Char) : items (m + 1) (cs ++ ds) = some (xs, rest ++ ds) := by
  rw [JsonText.items] at h ⊢
  cases hskip : skipBlanks cs with
  | nil =>
      rw [hskip] at h
      cases h
  | cons c cs' =>
      rw [hskip] at h
      rw [skipBlanks_front hskip]
      dsimp only at h ⊢
      split_ifs at h ⊢
      · obtain ⟨rfl, rfl⟩ := Prod.mk.inj (Option.some.inj h)
        rfl
      · simp only [Option.bind_eq_bind, Option.bind_eq_some_iff] at h
        obtain ⟨⟨d, cs₁⟩, hvalue, ⟨xs', cs₂⟩, hitems, heq⟩ := h
        obtain ⟨rfl, rfl⟩ := Prod.mk.inj (Option.some.inj heq)
        rw [ih.value hvalue (.inl (items_ne_nil hitems)) m hle ds]
        simp only [Option.bind_eq_bind, Option.bind_some, ih.items hitems m hle ds]

theorem field_front (ih : Fronts n) {f : List Letter × Doc} (h : field (n + 1) cs = some (f, rest))
    (hrest : rest ≠ []) (hle : n ≤ m) (ds : List Char) : field (m + 1) (cs ++ ds) = some (f, rest ++ ds) := by
  rw [JsonText.field] at h ⊢
  cases hskip : skipBlanks cs with
  | nil =>
      rw [hskip] at h
      cases h
  | cons c cs' =>
      rw [hskip] at h
      rw [skipBlanks_front hskip]
      dsimp only at h ⊢
      split_ifs at h ⊢
      simp only [Option.bind_eq_bind, Option.bind_eq_some_iff] at h
      obtain ⟨⟨key, cs₁⟩, hkey, h⟩ := h
      rw [letters_front hkey]
      simp only [Option.bind_eq_bind, Option.bind_some] at h ⊢
      by_cases hcolon : (skipBlanks cs₁).head? = some ':'
      · rw [if_pos hcolon, Option.bind_eq_some_iff] at h
        obtain ⟨⟨d, cs₂⟩, hvalue, heq⟩ := h
        obtain ⟨rfl, rfl⟩ := Prod.mk.inj (Option.some.inj heq)
        rw [if_pos (head_skipBlanks hcolon ds).1, (head_skipBlanks hcolon ds).2,
          ih.value hvalue (.inl hrest) m hle ds]
        rfl
      · rw [if_neg hcolon] at h
        cases h

theorem fields_front (ih : Fronts n) {fs : List (List Letter × Doc)} (h : fields (n + 1) cs = some (fs, rest))
    (hle : n ≤ m) (ds : List Char) : fields (m + 1) (cs ++ ds) = some (fs, rest ++ ds) := by
  rw [JsonText.fields] at h ⊢
  cases hskip : skipBlanks cs with
  | nil =>
      rw [hskip] at h
      cases h
  | cons c cs' =>
      rw [hskip] at h
      rw [skipBlanks_front hskip]
      dsimp only at h ⊢
      split_ifs at h ⊢
      · obtain ⟨rfl, rfl⟩ := Prod.mk.inj (Option.some.inj h)
        rfl
      · simp only [Option.bind_eq_bind, Option.bind_eq_some_iff] at h
        obtain ⟨⟨f, cs₁⟩, hfield, ⟨fs', cs₂⟩, hfields, heq⟩ := h
        obtain ⟨rfl, rfl⟩ := Prod.mk.inj (Option.some.inj heq)
        rw [ih.field hfield (fields_ne_nil hfields) m hle ds]
        simp only [Option.bind_eq_bind, Option.bind_some, ih.fields hfields m hle ds]

theorem fronts (n : Nat) : Fronts n := by
  induction n with
  | zero =>
      constructor
      · intro cs rest d h
        cases h
      · intro cs rest xs h
        cases h
      · intro cs rest f h
        cases h
      · intro cs rest fs h
        cases h
  | succ n ih =>
      constructor
      · intro cs rest d h hd m hle ds
        obtain ⟨m, rfl⟩ := Nat.exists_eq_add_of_le' hle
        exact value_front ih h hd (Nat.le_add_left n m) ds
      · intro cs rest xs h m hle ds
        obtain ⟨m, rfl⟩ := Nat.exists_eq_add_of_le' hle
        exact items_front ih h (Nat.le_add_left n m) ds
      · intro cs rest f h hrest m hle ds
        obtain ⟨m, rfl⟩ := Nat.exists_eq_add_of_le' hle
        exact field_front ih h hrest (Nat.le_add_left n m) ds
      · intro cs rest fs h m hle ds
        obtain ⟨m, rfl⟩ := Nat.exists_eq_add_of_le' hle
        exact fields_front ih h (Nat.le_add_left n m) ds

/-- A text that goes on behind a document that is no number is none itself. -/
theorem scan_longer {d : Doc} (h : scan cs = some d) (hd : ∀ n, d ≠ .number n) (hlonger : ¬ ds.all isBlank) :
    scan (cs ++ ds) = none := by
  rw [scan, Option.bind_eq_bind, Option.bind_eq_some_iff] at h
  obtain ⟨⟨d', rest⟩, hvalue, h⟩ := h
  dsimp only at h
  split_ifs at h with hrest
  obtain rfl := Option.some.inj h
  rw [scan, (fronts _).value hvalue (.inr hd) _ (by rw [List.length_append]; omega) ds]
  have hmore : ¬ (skipBlanks (rest ++ ds)).isEmpty := by
    rw [List.isEmpty_iff, skipBlanks, List.dropWhile_eq_nil_iff]
    intro hblank
    apply hlonger
    rw [List.all_eq_true]
    intro c hc
    exact hblank c (List.mem_append_right _ hc)
  simp only [Option.bind_eq_bind, Option.bind_some, if_neg hmore]

end MLRunX.JsonBounds
