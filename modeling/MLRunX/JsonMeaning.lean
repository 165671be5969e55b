import Mathlib.Data.List.Pairwise
import Mathlib.Data.String.Basic
import MLRunX.JsonText
import MLRunX.JsonValues

namespace MLRunX.JsonMeaning

open JsonText JsonValues

def isHigh (unit : Fin 65536) : Bool := 0xD800 ≤ unit.1 && unit.1 ≤ 0xDBFF

def isLow (unit : Fin 65536) : Bool := 0xDC00 ≤ unit.1 && unit.1 ≤ 0xDFFF

/-- The characters that letters stand for. An escape that is half a character has none. -/
def text : List Letter → Option (List Char)
  | [] => some []
  | .plain c :: ls => (text ls).map (c.1 :: ·)
  | .short e :: ls => (text ls).map (e.char :: ·)
  | .unit u :: ls =>
      if isHigh u then
        match ls with
        | .unit v :: ls =>
            if isLow v then
              (text ls).map (Char.ofNat (0x10000 + (u.1 - 0xD800) * 1024 + (v.1 - 0xDC00)) :: ·)
            else none
        | _ => none
      else if isLow u then none
      else (text ls).map (Char.ofNat u.1 :: ·)

/-- A way to spell characters that is understood. -/
structure Spelling where
  letters : Char → List Letter
  understood : ∀ c ls, text (letters c ++ ls) = (text ls).map (c :: ·)

def Spelling.spell (S : Spelling) (s : String) : List Letter := s.toList.flatMap S.letters

theorem text_spell (S : Spelling) (s : String) : text (S.spell s) = some s.toList := by
  have hchars (cs : List Char) : text (cs.flatMap S.letters) = some cs := by
    induction cs with
    | nil => rfl
    | cons c cs ih => rw [List.flatMap_cons, S.understood, ih, Option.map_some]
  exact hchars s.toList

/-- The characters with a letter of their own, but for the slash. -/
def shortOf (c : Char) : Option Short :=
  [Short.quote, .backslash, .backspace, .formFeed, .newline, .return, .tab].find? (fun e => e.char == c)

def unit (n : Nat) : Letter := .unit ⟨n % 65536, Nat.mod_lt _ (by decide)⟩

def serdeLetters (c : Char) : List Letter :=
  match shortOf c with
  | some e => [.short e]
  | none => if h : isPlain c = true then [.plain ⟨c, h⟩] else [unit c.toNat]

def asciiLetters (c : Char) : List Letter :=
  match shortOf c with
  | some e => [.short e]
  | none =>
      if h : isPlain c = true ∧ c.toNat ≤ 126 then [.plain ⟨c, h.1⟩]
      else if c.toNat < 65536 then [unit c.toNat]
      else [unit (0xD800 + (c.toNat - 0x10000) / 1024), unit (0xDC00 + (c.toNat - 0x10000) % 1024)]

theorem shortOf_char {c : Char} {e : Short} (h : shortOf c = some e) : e.char = c := by
  simpa using List.find?_some h

theorem not_surrogate (c : Char) : c.toNat < 0xD800 ∨ 0xDFFF < c.toNat := by
  rcases c.valid with h | h
  · exact .inl h
  · exact .inr h.1

theorem unit_eq {n : Nat} (h : n < 65536) : unit n = .unit ⟨n, h⟩ := by
  simp only [unit, Nat.mod_eq_of_lt h]

theorem text_unit {c : Char} (hc : c.toNat < 65536) (ls : List Letter) :
    text (unit c.toNat :: ls) = (text ls).map (c :: ·) := by
  have hsurrogate := not_surrogate c
  have hhigh : isHigh ⟨c.toNat, hc⟩ = false := by
    simp only [isHigh, Bool.and_eq_false_iff, decide_eq_false_iff_not]
    omega
  have hlow : isLow ⟨c.toNat, hc⟩ = false := by
    simp only [isLow, Bool.and_eq_false_iff, decide_eq_false_iff_not]
    omega
  rw [unit_eq hc, text.eq_def]
  simp [hhigh, hlow]

theorem text_pair {c : Char} (hc : 65536 ≤ c.toNat) (ls : List Letter) :
    text (unit (0xD800 + (c.toNat - 0x10000) / 1024) :: unit (0xDC00 + (c.toNat - 0x10000) % 1024) :: ls) =
      (text ls).map (c :: ·) := by
  have hbound : c.toNat < 0x110000 := by
    rcases c.valid with h | h
    · exact Nat.lt_trans h (by decide)
    · exact h.2
  have hu : 0xD800 + (c.toNat - 0x10000) / 1024 < 65536 := by omega
  have hv : 0xDC00 + (c.toNat - 0x10000) % 1024 < 65536 := by omega
  have hhigh : isHigh ⟨_, hu⟩ = true := by
    simp only [isHigh, Bool.and_eq_true, decide_eq_true_eq]
    omega
  have hlow : isLow ⟨_, hv⟩ = true := by
    simp only [isLow, Bool.and_eq_true, decide_eq_true_eq]
    omega
  have hsum : 0x10000 + (0xD800 + (c.toNat - 0x10000) / 1024 - 0xD800) * 1024 +
      (0xDC00 + (c.toNat - 0x10000) % 1024 - 0xDC00) = c.toNat := by
    omega
  rw [unit_eq hu, unit_eq hv, text.eq_def]
  simp only [hhigh, hlow, if_true, hsum, Char.ofNat_toNat]

theorem toNat_of_not_plain {c : Char} (hshort : shortOf c = none) (h : ¬ isPlain c = true) : c.toNat < 32 := by
  by_contra hle
  have hnone := List.find?_eq_none.mp hshort
  have hquote := hnone .quote (by decide)
  have hback := hnone .backslash (by decide)
  apply h
  simp only [isPlain, Bool.and_eq_true, bne_iff_ne, decide_eq_true_eq]
  refine ⟨⟨?_, ?_⟩, Nat.le_of_not_lt hle⟩
  · rintro rfl
    exact hquote (by decide)
  · rintro rfl
    exact hback (by decide)

def serdeSpelling : Spelling where
  letters := serdeLetters
  understood c ls := by
    unfold serdeLetters
    cases hshort : shortOf c with
    | some e => rw [List.singleton_append, text, shortOf_char hshort]
    | none =>
        by_cases h : isPlain c = true
        · simp only [dif_pos h, List.singleton_append, text]
        · have hc := toNat_of_not_plain hshort h
          simp only [dif_neg h, List.singleton_append]
          exact text_unit (by omega) ls

def asciiSpelling : Spelling where
  letters := asciiLetters
  understood c ls := by
    unfold asciiLetters
    cases hshort : shortOf c with
    | some e => rw [List.singleton_append, text, shortOf_char hshort]
    | none =>
        by_cases h : isPlain c = true ∧ c.toNat ≤ 126
        · simp only [dif_pos h, List.singleton_append, text]
        · simp only [dif_neg h]
          by_cases hc : c.toNat < 65536
          · simp only [if_pos hc, List.singleton_append]
            exact text_unit hc ls
          · simp only [if_neg hc, List.cons_append, List.nil_append]
            exact text_pair (Nat.le_of_not_lt hc) ls

section Maps

variable {α : Type}

/-- Entry into a map that is kept in the order of its keys. An entry that is there stays. -/
def insertField (f : String × α) : List (String × α) → List (String × α)
  | [] => [f]
  | g :: gs => if f.1 < g.1 then f :: g :: gs else if f.1 = g.1 then g :: gs else g :: insertField f gs

/-- The map that a list of fields fills. The last of equal keys counts. -/
def ordered (fs : List (String × α)) : List (String × α) := fs.foldr insertField []

def Sorted (fs : List (String × α)) : Prop := fs.Pairwise (fun f g => f.1 < g.1)

theorem mem_insertField {f : String × α} {gs : List (String × α)} {h : String × α} (hh : h ∈ insertField f gs) :
    h = f ∨ h ∈ gs := by
  induction gs with
  | nil => exact .inl (List.mem_singleton.mp hh)
  | cons g gs ih =>
      simp only [insertField] at hh
      split at hh
      · exact List.mem_cons.mp hh
      · split at hh
        · exact .inr hh
        · rcases List.mem_cons.mp hh with rfl | hh
          · exact .inr List.mem_cons_self
          · exact (ih hh).imp_right (List.mem_cons_of_mem g)

theorem sorted_insertField (f : String × α) {gs : List (String × α)} (hgs : Sorted gs) :
    Sorted (insertField f gs) := by
  induction gs with
  | nil => exact List.pairwise_singleton _ f
  | cons g gs ih =>
      obtain ⟨hg, hgs'⟩ := List.pairwise_cons.mp hgs
      simp only [insertField]
      split
      · rename_i hlt
        refine List.pairwise_cons.mpr ⟨?_, hgs⟩
        intro h hh
        rcases List.mem_cons.mp hh with rfl | hh
        · exact hlt
        · exact hlt.trans (hg h hh)
      · split
        · exact hgs
        · rename_i hle hne
          refine List.pairwise_cons.mpr ⟨?_, ih hgs'⟩
          intro h hh
          rcases mem_insertField hh with rfl | hh
          · exact lt_of_le_of_ne (not_lt.mp hle) (Ne.symm hne)
          · exact hg h hh

theorem sorted_ordered (fs : List (String × α)) : Sorted (ordered fs) := by
  induction fs with
  | nil => exact List.Pairwise.nil
  | cons f fs ih => exact sorted_insertField f ih

theorem ordered_of_sorted {fs : List (String × α)} (hfs : Sorted fs) : ordered fs = fs := by
  induction fs with
  | nil => rfl
  | cons f fs ih =>
      obtain ⟨hf, hfs⟩ := List.pairwise_cons.mp hfs
      rw [ordered, List.foldr_cons, ← ordered, ih hfs]
      cases fs with
      | nil => rfl
      | cons g gs => exact if_pos (hf g List.mem_cons_self)

theorem mem_ordered {fs : List (String × α)} {f : String × α} (hf : f ∈ ordered fs) : f ∈ fs := by
  induction fs with
  | nil => exact hf
  | cons g fs ih =>
      rcases mem_insertField hf with rfl | hf
      · exact List.mem_cons_self
      · exact List.mem_cons_of_mem g (ih hf)

theorem lookup_of_lt {gs : List (String × α)} {key : String} (h : ∀ g ∈ gs, key < g.1) :
    gs.lookup key = none := by
  induction gs with
  | nil => rfl
  | cons g gs ih =>
      obtain ⟨hg, hgs⟩ := List.forall_mem_cons.mp h
      rw [List.lookup_cons, beq_eq_false_iff_ne.mpr hg.ne]
      exact ih hgs

theorem lookup_insertField (f : String × α) {gs : List (String × α)} (hgs : Sorted gs) (key : String) :
    (insertField f gs).lookup key = (gs.lookup key).or (if key = f.1 then some f.2 else none) := by
  induction gs with
  | nil =>
      rw [insertField, List.lookup_cons]
      by_cases h : key = f.1
      · simp [h]
      · simp [h, beq_eq_false_iff_ne.mpr h]
  | cons g gs ih =>
      obtain ⟨hg, hgs'⟩ := List.pairwise_cons.mp hgs
      simp only [insertField]
      split
      · rename_i hlt
        have hnone : (g :: gs).lookup f.1 = none := by
          apply lookup_of_lt
          intro h hh
          rcases List.mem_cons.mp hh with rfl | hh
          · exact hlt
          · exact hlt.trans (hg h hh)
        by_cases h : key = f.1
        · subst h
          rw [List.lookup_cons, beq_self_eq_true, hnone]
          simp
        · rw [List.lookup_cons, beq_eq_false_iff_ne.mpr h]
          simp [h]
      · split
        · rename_i heq
          by_cases h : key = f.1
          · rw [h, heq, List.lookup_cons, beq_self_eq_true]
            simp
          · simp [h]
        · rw [List.lookup_cons, List.lookup_cons]
          split
          · rfl
          · exact ih hgs'

theorem lookup_ordered (fs : List (String × α)) (key : String) :
    (ordered fs).lookup key = fs.reverse.lookup key := by
  induction fs with
  | nil => rfl
  | cons f fs ih =>
      rw [ordered, List.foldr_cons, ← ordered, lookup_insertField f (sorted_ordered fs), ih, List.reverse_cons,
        List.lookup_append, List.lookup_cons]
      by_cases h : key = f.1
      · simp [h]
      · simp [h, beq_eq_false_iff_ne.mpr h]

end Maps

/-- How a library reads numbers into values, and puts the numbers of values down. What it
puts down it can read, perhaps as another value. -/
structure Numbers where
  read : Numeral → Option String
  spell : String → Numeral
  readable : ∀ n t, read n = some t → ∃ t', read (spell t) = some t'

variable (N : Numbers)

mutual

/-- The value that a document stands for, if all of it stands for something. -/
def meaning : Doc → Option Json
  | .null => some .null
  | .bool b => some (.bool b)
  | .number (.numeral n) => (N.read n).map .number
  | .number (.nonFinite _) => none
  | .string ls => (text ls).map (fun cs => .string (String.ofList cs))
  | .array items => (meaningItems items).map .array
  | .object fields => (meaningFields fields).map (fun fs => .object (ordered fs))

def meaningItems : List Doc → Option (List Json)
  | [] => some []
  | d :: items => do
      let j ← meaning d
      let js ← meaningItems items
      some (j :: js)

def meaningFields : List (List Letter × Doc) → Option (List (String × Json))
  | [] => some []
  | (key, d) :: fields => do
      let key ← text key
      let j ← meaning d
      let fs ← meaningFields fields
      some ((String.ofList key, j) :: fs)

end

mutual

def tree : Json → JsonTree String String
  | .null => .null
  | .bool b => .bool b
  | .number t => .number t
  | .string s => .string s
  | .array items => .array (treeItems items)
  | .object fields => .object (treeFields fields)

def treeItems : List Json → List (JsonTree String String)
  | [] => []
  | j :: items => tree j :: treeItems items

def treeFields : List (String × Json) → List (String × JsonTree String String)
  | [] => []
  | (key, j) :: fields => (key, tree j) :: treeFields fields

end

def docOf (S : Spelling) (j : Json) : Doc := (tree j).map S.spell (fun t => .numeral (N.spell t))

def Numbers.again (t : String) : String := (N.read (N.spell t)).getD t

mutual

/-- A value with its numbers put down and read once more. -/
def reread : Json → Json
  | .null => .null
  | .bool b => .bool b
  | .number t => .number (N.again t)
  | .string s => .string s
  | .array items => .array (rereadItems items)
  | .object fields => .object (rereadFields fields)

def rereadItems : List Json → List Json
  | [] => []
  | j :: items => reread j :: rereadItems items

def rereadFields : List (String × Json) → List (String × Json)
  | [] => []
  | (key, j) :: fields => (key, reread j) :: rereadFields fields

end

inductive Normal : Json → Prop
  | null : Normal .null
  | bool (b : Bool) : Normal (.bool b)
  | number {n : Numeral} {t : String} (h : N.read n = some t) : Normal (.number t)
  | string (s : String) : Normal (.string s)
  | array {items : List Json} (h : ∀ j ∈ items, Normal j) : Normal (.array items)
  | object {fields : List (String × Json)} (hsorted : Sorted fields) (h : ∀ f ∈ fields, Normal f.2) :
      Normal (.object fields)

variable {N}

theorem normal_meaning {d : Doc} : ∀ {j}, meaning N d = some j → Normal N j := by
  induction d using JsonTree.induct with
  | null =>
      rintro _ ⟨⟩
      exact .null
  | bool b =>
      rintro _ ⟨⟩
      exact .bool b
  | number l =>
      intro j h
      cases l with
      | nonFinite w => cases h
      | numeral n =>
          obtain ⟨t, ht, rfl⟩ := Option.map_eq_some_iff.mp h
          exact .number ht
  | string ls =>
      intro j h
      obtain ⟨cs, -, rfl⟩ := Option.map_eq_some_iff.mp h
      exact .string _
  | array items ih =>
      intro j h
      obtain ⟨js, hjs, rfl⟩ := Option.map_eq_some_iff.mp h
      apply Normal.array
      clear h
      induction items generalizing js with
      | nil =>
          obtain rfl : [] = js := Option.some.inj hjs
          exact fun _ hj => absurd hj List.not_mem_nil
      | cons d items ih' =>
          obtain ⟨hd, hitems⟩ := List.forall_mem_cons.mp ih
          obtain ⟨j, hj, hrest⟩ := Option.bind_eq_some_iff.mp hjs
          obtain ⟨js', hjs', hcons⟩ := Option.bind_eq_some_iff.mp hrest
          obtain rfl := Option.some.inj hcons
          exact List.forall_mem_cons.mpr ⟨hd hj, ih' hitems js' hjs'⟩
  | object fields ih =>
      intro j h
      obtain ⟨fs, hfs, rfl⟩ := Option.map_eq_some_iff.mp h
      refine .object (sorted_ordered fs) (fun f hf => ?_)
      replace hf := mem_ordered hf
      clear h
      induction fields generalizing fs with
      | nil =>
          obtain rfl : [] = fs := Option.some.inj hfs
          exact absurd hf List.not_mem_nil
      | cons p fields ih' =>
          obtain ⟨key, d⟩ := p
          obtain ⟨hd, hfields⟩ := List.forall_mem_cons.mp ih
          obtain ⟨cs, -, hrest⟩ := Option.bind_eq_some_iff.mp hfs
          obtain ⟨j, hj, hrest⟩ := Option.bind_eq_some_iff.mp hrest
          obtain ⟨fs', hfs', hcons⟩ := Option.bind_eq_some_iff.mp hrest
          obtain rfl := Option.some.inj hcons
          rcases List.mem_cons.mp hf with rfl | hf
          · exact hd hj
          · exact ih' hfields fs' hfs' hf

theorem read_spell {n : Numeral} {t : String} (h : N.read n = some t) : N.read (N.spell t) = some (N.again t) := by
  obtain ⟨t', ht'⟩ := N.readable n t h
  rw [Numbers.again, ht', Option.getD_some]

theorem rereadFields_eq_map (fields : List (String × Json)) :
    rereadFields N fields = fields.map (fun f => (f.1, reread N f.2)) := by
  induction fields with
  | nil => rfl
  | cons f fields ih =>
      obtain ⟨key, j⟩ := f
      rw [rereadFields, ih, List.map_cons]

theorem sorted_rereadFields {fields : List (String × Json)} (h : Sorted fields) : Sorted (rereadFields N fields) := by
  rw [rereadFields_eq_map]
  exact List.pairwise_map.mpr h

theorem lookup_rereadFields (fields : List (String × Json)) (key : String) :
    (rereadFields N fields).lookup key = (fields.lookup key).map (reread N) := by
  induction fields with
  | nil => rfl
  | cons f fields ih =>
      obtain ⟨name, j⟩ := f
      rw [rereadFields, List.lookup_cons, List.lookup_cons]
      split
      · rfl
      · exact ih

theorem depth_reread (j : Json) : (tree (reread N j)).depth = (tree j).depth := by
  induction j using Json.induct with
  | null => rfl
  | bool b => rfl
  | number t => rfl
  | string s => rfl
  | array items ih =>
      have hitems : depthItems (treeItems (rereadItems N items)) = depthItems (treeItems items) := by
        induction items with
        | nil => rfl
        | cons j items ih' =>
            obtain ⟨hj, hjs⟩ := List.forall_mem_cons.mp ih
            simp only [rereadItems, treeItems, depthItems, hj, ih' hjs]
      exact congrArg (· + 1) hitems
  | object fields ih =>
      have hfields : depthFields (treeFields (rereadFields N fields)) = depthFields (treeFields fields) := by
        induction fields with
        | nil => rfl
        | cons f fields ih' =>
            obtain ⟨key, j⟩ := f
            obtain ⟨hj, hjs⟩ := List.forall_mem_cons.mp ih
            simp only [rereadFields, treeFields, depthFields, hj, ih' hjs]
      exact congrArg (· + 1) hfields

theorem meaning_docOf (S : Spelling) {j : Json} (hj : Normal N j) : meaning N (docOf N S j) = some (reread N j) := by
  induction hj with
  | null => rfl
  | bool b => rfl
  | number h => exact congrArg (Option.map Json.number) (read_spell h)
  | string s =>
      change (text (S.spell s)).map (fun cs => Json.string (String.ofList cs)) = _
      rw [text_spell, Option.map_some, String.ofList_toList, reread]
  | @array items h ih =>
      have hitems : meaningItems N (mapItems S.spell (fun t => .numeral (N.spell t)) (treeItems items)) =
          some (rereadItems N items) := by
        clear h
        induction items with
        | nil => rfl
        | cons j items ih' =>
            obtain ⟨hj, hrest⟩ := List.forall_mem_cons.mp ih
            have hj' : meaning N ((tree j).map S.spell (fun t => .numeral (N.spell t))) = some (reread N j) := hj
            simp only [treeItems, mapItems, meaningItems, hj', ih' hrest, Option.bind_eq_bind, Option.bind_some,
              rereadItems]
      exact congrArg (Option.map Json.array) hitems
  | @object fields hsorted h ih =>
      have hfields : meaningFields N (mapFields S.spell (fun t => .numeral (N.spell t)) (treeFields fields)) =
          some (rereadFields N fields) := by
        clear h hsorted
        induction fields with
        | nil => rfl
        | cons f fields ih' =>
            obtain ⟨key, j⟩ := f
            obtain ⟨hj, hrest⟩ := List.forall_mem_cons.mp ih
            have hj' : meaning N ((tree j).map S.spell (fun t => .numeral (N.spell t))) = some (reread N j) := hj
            simp only [treeFields, mapFields, meaningFields, text_spell, hj', ih' hrest, Option.bind_eq_bind,
              Option.bind_some, String.ofList_toList, rereadFields]
      change (meaningFields N _).map _ = _
      rw [hfields, Option.map_some, ordered_of_sorted (sorted_rereadFields hsorted), reread]

end MLRunX.JsonMeaning
