import Mathlib.Data.List.Basic

namespace MLRunX.JsonText

/-- JSON as a tree, over any kind of texts and of numbers. -/
inductive JsonTree (κ ν : Type)
  | null
  | bool (value : Bool)
  | number (n : ν)
  | string (text : κ)
  | array (items : List (JsonTree κ ν))
  | object (fields : List (κ × JsonTree κ ν))

section Trees

variable {κ ν : Type}

theorem JsonTree.induct {P : JsonTree κ ν → Prop} (null : P .null) (bool : ∀ b, P (.bool b))
    (number : ∀ n, P (.number n))
    (string : ∀ s, P (.string s)) (array : ∀ items, (∀ d ∈ items, P d) → P (.array items))
    (object : ∀ fields, (∀ f ∈ fields, P f.2) → P (.object fields)) (d : JsonTree κ ν) : P d :=
  @JsonTree.rec κ ν P (fun items => ∀ d ∈ items, P d) (fun fields => ∀ f ∈ fields, P f.2) (fun f =>
    P f.2) null bool number
    string array object (fun _ h => absurd h List.not_mem_nil)
    (fun _ _ hd hds => List.forall_mem_cons.mpr ⟨hd, hds⟩) (fun _ h => absurd h List.not_mem_nil)
    (fun _ _ hf hfs => List.forall_mem_cons.mpr ⟨hf, hfs⟩) (fun _ _ hd => hd) d

/-- How texts and numbers are spelled, and what stands behind commas and colons. -/
structure Format (κ ν : Type) where
  text : κ → List Char
  number : ν → List Char
  gap : List Char

variable (F : Format κ ν)

mutual

def JsonTree.write : JsonTree κ ν → List Char
  | .null => ['n', 'u', 'l', 'l']
  | .bool true => ['t', 'r', 'u', 'e']
  | .bool false => ['f', 'a', 'l', 's', 'e']
  | .number n => F.number n
  | .string s => '"' :: (F.text s ++ ['"'])
  | .array [] => ['[', ']']
  | .array (d :: items) => '[' :: (d.write ++ writeItems items)
  | .object [] => ['\x7b', '\x7d']
  | .object ((key, d) :: fields) =>
      '\x7b' :: '"' :: (F.text key ++ '"' :: ':' :: (F.gap ++ (d.write ++ writeFields fields)))

/-- The items of an array behind the first one. -/
def writeItems : List (JsonTree κ ν) → List Char
  | [] => [']']
  | d :: items => ',' :: (F.gap ++ (d.write ++ writeItems items))

def writeFields : List (κ × JsonTree κ ν) → List Char
  | [] => ['\x7d']
  | (key, d) :: fields =>
      ',' :: (F.gap ++ '"' :: (F.text key ++ '"' :: ':' :: (F.gap ++ (d.write ++ writeFields fields))))

end

mutual

/-- A tree over other texts and numbers. -/
def JsonTree.map {κ' ν' : Type} (f : κ → κ') (g : ν → ν') : JsonTree κ ν → JsonTree κ' ν'
  | .null => .null
  | .bool b => .bool b
  | .number n => .number (g n)
  | .string s => .string (f s)
  | .array items => .array (mapItems f g items)
  | .object fields => .object (mapFields f g fields)

def mapItems {κ' ν' : Type} (f : κ → κ') (g : ν → ν') : List (JsonTree κ ν) → List (JsonTree κ' ν')
  | [] => []
  | d :: items => d.map f g :: mapItems f g items

def mapFields {κ' ν' : Type} (f : κ → κ') (g : ν → ν') : List (κ × JsonTree κ ν) →
    List (κ' × JsonTree κ' ν')
  | [] => []
  | (key, d) :: fields => (f key, d.map f g) :: mapFields f g fields

end

mutual

/-- The number of arrays and objects around each other. -/
def JsonTree.depth : JsonTree κ ν → Nat
  | .array items => depthItems items + 1
  | .object fields => depthFields fields + 1
  | _ => 0

def depthItems : List (JsonTree κ ν) → Nat
  | [] => 0
  | d :: items => max d.depth (depthItems items)

def depthFields : List (κ × JsonTree κ ν) → Nat
  | [] => 0
  | (_, d) :: fields => max d.depth (depthFields fields)

end

mutual

/-- A test of all the numbers of a tree. -/
def JsonTree.allNumbers (p : ν → Bool) : JsonTree κ ν → Bool
  | .number n => p n
  | .array items => allNumbersItems p items
  | .object fields => allNumbersFields p fields
  | _ => true

def allNumbersItems (p : ν → Bool) : List (JsonTree κ ν) → Bool
  | [] => true
  | d :: items => d.allNumbers p && allNumbersItems p items

def allNumbersFields (p : ν → Bool) : List (κ × JsonTree κ ν) → Bool
  | [] => true
  | (_, d) :: fields => d.allNumbers p && allNumbersFields p fields

end

theorem allNumbersItems_iff {p : ν → Bool} {items : List (JsonTree κ ν)} :
    allNumbersItems p items = true ↔ ∀ d ∈ items, d.allNumbers p = true := by
  induction items with
  | nil => simp [allNumbersItems]
  | cons d items ih => simp [allNumbersItems, ih]

theorem allNumbersFields_iff {p : ν → Bool} {fields : List (κ × JsonTree κ ν)} :
    allNumbersFields p fields = true ↔ ∀ f ∈ fields, f.2.allNumbers p = true := by
  induction fields with
  | nil => simp [allNumbersFields]
  | cons f fields ih =>
      obtain ⟨key, d⟩ := f
      rw [allNumbersFields, Bool.and_eq_true, ih, List.forall_mem_cons]

section Maps

variable {κ' ν' : Type} {f : κ → κ'} {g : ν → ν'}

theorem write_map {F : Format κ ν} {F' : Format κ' ν'} (htext : ∀ s, F'.text (f s) = F.text s)
    (hnumber : ∀ n, F'.number (g n) = F.number n) (hgap : F'.gap = F.gap) (d : JsonTree κ ν) :
    (d.map f g).write F' = d.write F := by
  have hitems (items : List (JsonTree κ ν)) (ih : ∀ d ∈ items, (d.map f g).write F' = d.write F) :
      writeItems F' (mapItems f g items) = writeItems F items := by
    induction items with
    | nil => rfl
    | cons d items ih' =>
        obtain ⟨hd, hds⟩ := List.forall_mem_cons.mp ih
        simp only [mapItems, writeItems, hd, ih' hds, hgap]
  have hfields (fields : List (κ × JsonTree κ ν)) (ih : ∀ p ∈ fields, (p.2.map f g).write F' = p.2.write F) :
      writeFields F' (mapFields f g fields) = writeFields F fields := by
    induction fields with
    | nil => rfl
    | cons p fields ih' =>
        obtain ⟨key, d⟩ := p
        obtain ⟨hd, hds⟩ := List.forall_mem_cons.mp ih
        simp only [mapFields, writeFields, hd, ih' hds, hgap, htext]
  induction d using JsonTree.induct with
  | null => rfl
  | bool b => cases b <;> rfl
  | number n => simp only [JsonTree.map, JsonTree.write, hnumber]
  | string s => simp only [JsonTree.map, JsonTree.write, htext]
  | array items ih =>
      cases items with
      | nil => rfl
      | cons d items =>
          obtain ⟨hd, hds⟩ := List.forall_mem_cons.mp ih
          simp only [JsonTree.map, mapItems, JsonTree.write, hd, hitems items hds]
  | object fields ih =>
      cases fields with
      | nil => rfl
      | cons p fields =>
          obtain ⟨key, d⟩ := p
          obtain ⟨hd, hds⟩ := List.forall_mem_cons.mp ih
          simp only [JsonTree.map, mapFields, JsonTree.write, hd, hfields fields hds, htext, hgap]

theorem depth_map (d : JsonTree κ ν) : (d.map f g).depth = d.depth := by
  have hitems (items : List (JsonTree κ ν)) (ih : ∀ d ∈ items, (d.map f g).depth = d.depth) :
      depthItems (mapItems f g items) = depthItems items := by
    induction items with
    | nil => rfl
    | cons d items ih' =>
        obtain ⟨hd, hds⟩ := List.forall_mem_cons.mp ih
        simp only [mapItems, depthItems, hd, ih' hds]
  have hfields (fields : List (κ × JsonTree κ ν)) (ih : ∀ p ∈ fields, (p.2.map f g).depth = p.2.depth) :
      depthFields (mapFields f g fields) = depthFields fields := by
    induction fields with
    | nil => rfl
    | cons p fields ih' =>
        obtain ⟨key, d⟩ := p
        obtain ⟨hd, hds⟩ := List.forall_mem_cons.mp ih
        simp only [mapFields, depthFields, hd, ih' hds]
  induction d using JsonTree.induct with
  | null => rfl
  | bool b => rfl
  | number n => rfl
  | string s => rfl
  | array items ih => simp only [JsonTree.map, JsonTree.depth, hitems items ih]
  | object fields ih => simp only [JsonTree.map, JsonTree.depth, hfields fields ih]

theorem allNumbers_map {p : ν' → Bool} (d : JsonTree κ ν) :
    (d.map f g).allNumbers p = d.allNumbers (fun n => p (g n)) := by
  have hitems (items : List (JsonTree κ ν)) (ih : ∀ d ∈ items, (d.map f g).allNumbers p =
      d.allNumbers (fun n => p (g n))) :
      allNumbersItems p (mapItems f g items) = allNumbersItems (fun n => p (g n)) items := by
    induction items with
    | nil => rfl
    | cons d items ih' =>
        obtain ⟨hd, hds⟩ := List.forall_mem_cons.mp ih
        simp only [mapItems, allNumbersItems, hd, ih' hds]
  have hfields (fields : List (κ × JsonTree κ ν))
      (ih : ∀ q ∈ fields, (q.2.map f g).allNumbers p = q.2.allNumbers (fun n => p (g n))) :
      allNumbersFields p (mapFields f g fields) = allNumbersFields (fun n => p (g n)) fields := by
    induction fields with
    | nil => rfl
    | cons q fields ih' =>
        obtain ⟨key, d⟩ := q
        obtain ⟨hd, hds⟩ := List.forall_mem_cons.mp ih
        simp only [mapFields, allNumbersFields, hd, ih' hds]
  induction d using JsonTree.induct with
  | null => rfl
  | bool b => rfl
  | number n => rfl
  | string s => rfl
  | array items ih => simp only [JsonTree.map, JsonTree.allNumbers, hitems items ih]
  | object fields ih => simp only [JsonTree.map, JsonTree.allNumbers, hfields fields ih]

theorem map_map_cancel {f' : κ' → κ} {g' : ν' → ν} (htext : ∀ s, f' (f s) = s) (hnumber : ∀ n, g' (g n) = n)
    (d : JsonTree κ ν) : (d.map f g).map f' g' = d := by
  have hitems (items : List (JsonTree κ ν)) (ih : ∀ d ∈ items, (d.map f g).map f' g' = d) :
      mapItems f' g' (mapItems f g items) = items := by
    induction items with
    | nil => rfl
    | cons d items ih' =>
        obtain ⟨hd, hds⟩ := List.forall_mem_cons.mp ih
        simp only [mapItems, hd, ih' hds]
  have hfields (fields : List (κ × JsonTree κ ν)) (ih : ∀ p ∈ fields, (p.2.map f g).map f' g' = p.2) :
      mapFields f' g' (mapFields f g fields) = fields := by
    induction fields with
    | nil => rfl
    | cons p fields ih' =>
        obtain ⟨key, d⟩ := p
        obtain ⟨hd, hds⟩ := List.forall_mem_cons.mp ih
        simp only [mapFields, htext, hd, ih' hds]
  induction d using JsonTree.induct with
  | null => rfl
  | bool b => rfl
  | number n => simp only [JsonTree.map, hnumber]
  | string s => simp only [JsonTree.map, htext]
  | array items ih => simp only [JsonTree.map, hitems items ih]
  | object fields ih => simp only [JsonTree.map, hfields fields ih]

end Maps

end Trees

/-- What may stand in a text as it is. -/
def isPlain (c : Char) : Bool := c != '"' && c != '\\' && 32 ≤ c.toNat

inductive Short
  | quote | backslash | slash | backspace | formFeed | newline | return | tab
  deriving DecidableEq, Repr

def Short.letter : Short → Char
  | .quote => '"'
  | .backslash => '\\'
  | .slash => '/'
  | .backspace => 'b'
  | .formFeed => 'f'
  | .newline => 'n'
  | .return => 'r'
  | .tab => 't'

def Short.char : Short → Char
  | .quote => '"'
  | .backslash => '\\'
  | .slash => '/'
  | .backspace => '\x08'
  | .formFeed => '\x0c'
  | .newline => '\n'
  | .return => '\r'
  | .tab => '\t'

def Short.all : List Short := [.quote, .backslash, .slash, .backspace, .formFeed, .newline, .return, .tab]

/-- A piece of a text: a character as it is, behind a backslash, or by four digits. -/
inductive Letter
  | plain (c : {c : Char // isPlain c = true})
  | short (e : Short)
  | unit (code : Fin 65536)
  deriving DecidableEq

def hexDigit (d : Nat) : Char := Char.ofNat (if d < 10 then 48 + d else 87 + d)

def hexValue (c : Char) : Option Nat :=
  if '0' ≤ c ∧ c ≤ '9' then some (c.toNat - 48)
  else if 'a' ≤ c ∧ c ≤ 'f' then some (c.toNat - 87)
  else if 'A' ≤ c ∧ c ≤ 'F' then some (c.toNat - 55)
  else none

def Letter.chars : Letter → List Char
  | .plain c => [c.1]
  | .short e => ['\\', e.letter]
  | .unit code => ['\\', 'u', hexDigit (code / 4096), hexDigit (code / 256 % 16), hexDigit (code / 16 % 16),
      hexDigit (code % 16)]

def unitOf (a b c d : Char) : Option Letter := do
  let a ← hexValue a
  let b ← hexValue b
  let c ← hexValue c
  let d ← hexValue d
  if h : 4096 * a + 256 * b + 16 * c + d < 65536 then some (.unit ⟨_, h⟩) else none

/-- The rest of a text behind its opening quote. -/
def letters : List Char → Option (List Letter × List Char)
  | [] => none
  | c :: cs =>
      if c = '"' then some ([], cs)
      else if c = '\\' then
        match cs with
        | [] => none
        | e :: cs =>
            if e = 'u' then
              match cs with
              | a :: b :: c :: d :: cs => do
                  let unit ← unitOf a b c d
                  let (ls, rest) ← letters cs
                  some (unit :: ls, rest)
              | _ => none
            else do
              let short ← Short.all.find? (fun s => s.letter == e)
              let (ls, rest) ← letters cs
              some (.short short :: ls, rest)
      else if h : isPlain c = true then do
        let (ls, rest) ← letters cs
        some (.plain ⟨c, h⟩ :: ls, rest)
      else none

theorem hexValue_hexDigit : ∀ d < 16, hexValue (hexDigit d) = some d := by decide

theorem unitOf_chars (code : Fin 65536) : unitOf (hexDigit (code / 4096)) (hexDigit (code / 256 % 16))
    (hexDigit (code / 16 % 16)) (hexDigit (code % 16)) = some (.unit code) := by
  have hcode := code.isLt
  have hsum : 4096 * (code.1 / 4096) + 256 * (code.1 / 256 % 16) + 16 * (code.1 / 16 % 16) + code.1 % 16 =
      code.1 := by
    omega
  simp only [unitOf, hexValue_hexDigit (code / 4096) (by omega), hexValue_hexDigit (code / 256 % 16) (by omega),
    hexValue_hexDigit (code / 16 % 16) (by omega), hexValue_hexDigit (code % 16) (by omega), Option.bind_eq_bind,
    Option.bind_some]
  simp only [hsum, hcode, dif_pos]

theorem find_short (e : Short) : Short.all.find? (fun s => s.letter == e.letter) = some e := by
  cases e <;> rfl

theorem short_letter_ne (e : Short) : e.letter ≠ 'u' := by
  cases e <;> decide

theorem letters_cons (l : Letter) (cs : List Char) :
    letters (l.chars ++ cs) = (letters cs).map (fun r => (l :: r.1, r.2)) := by
  cases l with
  | plain c =>
      have hc := c.2
      have hquote : c.1 ≠ '"' := by
        intro h
        rw [h] at hc
        exact absurd hc (by decide)
      have hback : c.1 ≠ '\\' := by
        intro h
        rw [h] at hc
        exact absurd hc (by decide)
      rw [Letter.chars, List.singleton_append, letters.eq_def]
      simp only [if_neg hquote, if_neg hback, dif_pos hc]
      cases letters cs <;> rfl
  | short e =>
      rw [Letter.chars, List.cons_append, List.cons_append, List.nil_append, letters.eq_def]
      simp only [if_neg (short_letter_ne e), find_short]
      cases letters cs <;> rfl
  | unit code =>
      simp only [Letter.chars, List.cons_append, List.nil_append]
      rw [letters.eq_def]
      simp only [unitOf_chars]
      cases letters cs <;> rfl

theorem letters_text (ls : List Letter) (cs : List Char) :
    letters (ls.flatMap Letter.chars ++ '"' :: cs) = some (ls, cs) := by
  induction ls with
  | nil =>
      rw [List.flatMap_nil, List.nil_append, letters.eq_def]
      exact if_pos rfl
  | cons l ls ih =>
      rw [List.flatMap_cons, List.append_assoc, letters_cons, ih]
      rfl

def isNumberChar (c : Char) : Bool := c.isDigit || ['+', '-', '.', 'e', 'E'].contains c

def isExponent : List Char → Bool
  | [] => true
  | e :: cs =>
      let digits := if cs.head? = some '+' ∨ cs.head? = some '-' then cs.tail else cs
      (e == 'e' || e == 'E') && !digits.isEmpty && digits.all Char.isDigit

def isFraction (cs : List Char) : Bool :=
  if cs.head? = some '.' then
    !(cs.tail.takeWhile Char.isDigit).isEmpty && isExponent (cs.tail.dropWhile Char.isDigit)
  else isExponent cs

def isNumber (cs : List Char) : Bool :=
  let digits := if cs.head? = some '-' then cs.tail else cs
  cs.all isNumberChar && (digits.head?.any Char.isDigit) &&
    isFraction (if digits.head? = some '0' then digits.tail else digits.dropWhile Char.isDigit)

structure Numeral where
  chars : List Char
  valid : isNumber chars = true
  deriving DecidableEq

/-- Words for numbers that are none, which some writers put down. -/
inductive NonFinite
  | nan | positive | negative
  deriving DecidableEq, Repr

def NonFinite.chars : NonFinite → List Char
  | .nan => ['N', 'a', 'N']
  | .positive => ['I', 'n', 'f', 'i', 'n', 'i', 't', 'y']
  | .negative => ['-', 'I', 'n', 'f', 'i', 'n', 'i', 't', 'y']

inductive Literal
  | numeral (n : Numeral)
  | nonFinite (w : NonFinite)
  deriving DecidableEq

def Literal.chars : Literal → List Char
  | .numeral n => n.chars
  | .nonFinite w => w.chars

abbrev Doc := JsonTree (List Letter) Literal

def isBlank (c : Char) : Bool := c == ' ' || c == '\n' || c == '\t' || c == '\r'

def skipBlanks (cs : List Char) : List Char := cs.dropWhile isBlank

def number (cs : List Char) : Option (Doc × List Char) :=
  if h : isNumber (cs.takeWhile isNumberChar) = true then
    some (.number (.numeral ⟨_, h⟩), cs.dropWhile isNumberChar)
  else none

def word (w : List Char) (d : Doc) (cs : List Char) : Option (Doc × List Char) :=
  if w.isPrefixOf cs then some (d, cs.drop w.length) else none

mutual

/-- A value at the beginning of a text, and what is behind it. The fuel is used up
one for each value and comma on the way down. -/
def value : Nat → List Char → Option (Doc × List Char)
  | 0, _ => none
  | n + 1, cs =>
      match skipBlanks cs with
      | [] => none
      | c :: cs =>
          if c = '"' then (letters cs).map (fun r => (.string r.1, r.2))
          else if c = '[' then
            if (skipBlanks cs).head? = some ']' then some (.array [], (skipBlanks cs).tail)
            else do
              let (d, cs) ← value n cs
              let (items, cs) ← items n cs
              some (.array (d :: items), cs)
          else if c = '\x7b' then
            if (skipBlanks cs).head? = some '\x7d' then some (.object [], (skipBlanks cs).tail)
            else do
              let (f, cs) ← field n cs
              let (fields, cs) ← fields n cs
              some (.object (f :: fields), cs)
          else if c = 'n' then word ['u', 'l', 'l'] .null cs
          else if c = 't' then word ['r', 'u', 'e'] (.bool true) cs
          else if c = 'f' then word ['a', 'l', 's', 'e'] (.bool false) cs
          else number (c :: cs)

def items : Nat → List Char → Option (List Doc × List Char)
  | 0, _ => none
  | n + 1, cs =>
      match skipBlanks cs with
      | [] => none
      | c :: cs =>
          if c = ']' then some ([], cs)
          else if c = ',' then do
            let (d, cs) ← value n cs
            let (ds, cs) ← items n cs
            some (d :: ds, cs)
          else none

def field : Nat → List Char → Option ((List Letter × Doc) × List Char)
  | 0, _ => none
  | n + 1, cs =>
      match skipBlanks cs with
      | [] => none
      | c :: cs =>
          if c = '"' then do
            let (key, cs) ← letters cs
            if (skipBlanks cs).head? = some ':' then do
              let (d, cs) ← value n (skipBlanks cs).tail
              some ((key, d), cs)
            else none
          else none

def fields : Nat → List Char → Option (List (List Letter × Doc) × List Char)
  | 0, _ => none
  | n + 1, cs =>
      match skipBlanks cs with
      | [] => none
      | c :: cs =>
          if c = '\x7d' then some ([], cs)
          else if c = ',' then do
            let (f, cs) ← field n cs
            let (fs, cs) ← fields n cs
            some (f :: fs, cs)
          else none

end

/-- The document that a text is, with nothing but blanks behind it. -/
def scan (cs : List Char) : Option Doc := do
  let (d, rest) ← value (cs.length + 1) cs
  if (skipBlanks rest).isEmpty then some d else none

def docFormat (gap : List Char) : Format (List Letter) Literal where
  text ls := ls.flatMap Letter.chars
  number := Literal.chars
  gap := gap

def Literal.isNumeral : Literal → Bool
  | .numeral _ => true
  | .nonFinite _ => false

/-- No number goes on here. -/
def Ends (cs : List Char) : Prop := ∀ c ∈ cs.head?, isNumberChar c = false

theorem isNumber_head {cs : List Char} (h : isNumber cs = true) : ∃ c r, cs = c :: r ∧ isNumberChar c = true := by
  cases cs with
  | nil => cases h
  | cons c r =>
      simp only [isNumber, Bool.and_eq_true, List.all_cons] at h
      exact ⟨c, r, rfl, h.1.1.1⟩

theorem isNumber_chars {cs : List Char} (h : isNumber cs = true) : ∀ c ∈ cs, isNumberChar c = true := by
  simp only [isNumber, Bool.and_eq_true, List.all_eq_true] at h
  exact h.1.1

theorem takeWhile_ends {cs rest : List Char} (h : ∀ c ∈ cs, isNumberChar c = true) (hrest : Ends rest) :
    (cs ++ rest).takeWhile isNumberChar = cs ∧ (cs ++ rest).dropWhile isNumberChar = rest := by
  have hstop : rest.takeWhile isNumberChar = [] ∧ rest.dropWhile isNumberChar = rest := by
    cases rest with
    | nil => exact ⟨rfl, rfl⟩
    | cons c rest =>
        have hc : ¬ isNumberChar c = true := by simp [hrest c rfl]
        exact ⟨List.takeWhile_cons_of_neg hc, List.dropWhile_cons_of_neg hc⟩
  rw [List.takeWhile_append_of_pos h, List.dropWhile_append_of_pos h, hstop.1, hstop.2, List.append_nil]
  exact ⟨rfl, rfl⟩

theorem number_numeral (n : Numeral) {rest : List Char} (hrest : Ends rest) :
    number (n.chars ++ rest) = some (.number (.numeral n), rest) := by
  obtain ⟨htake, hdrop⟩ := takeWhile_ends (isNumber_chars n.valid) hrest
  simp only [number, htake, hdrop, dif_pos n.valid]

theorem number_nonFinite (w : NonFinite) (rest : List Char) : number (w.chars ++ rest) = none := by
  cases w <;> rfl

theorem skipBlanks_append {gap : List Char} (hgap : ∀ c ∈ gap, isBlank c = true) (cs : List Char) :
    skipBlanks (gap ++ cs) = skipBlanks cs :=
  List.dropWhile_append_of_pos hgap

theorem skipBlanks_cons {c : Char} (hc : isBlank c = false) (cs : List Char) : skipBlanks (c :: cs) = c :: cs :=
  List.dropWhile_cons_of_neg (by simp [hc])

section RoundTrip

variable {gap : List Char}

theorem value_gap (hgap : ∀ c ∈ gap, isBlank c = true) (n : Nat) (cs : List Char) :
    value n (gap ++ cs) = value n cs := by
  cases n with
  | zero => rfl
  | succ n => rw [value, value, skipBlanks_append hgap]

theorem field_gap (hgap : ∀ c ∈ gap, isBlank c = true) (n : Nat) (cs : List Char) :
    field n (gap ++ cs) = field n cs := by
  cases n with
  | zero => rfl
  | succ n => rw [field, field, skipBlanks_append hgap]

theorem numberChar_ne {c k : Char} (hc : isNumberChar c = true) (hk : isNumberChar k = false) : c ≠ k := by
  rintro rfl
  exact absurd hc (by simp [hk])

theorem numberChar_not_blank {c : Char} (hc : isNumberChar c = true) : isBlank c = false := by
  have hne := fun k => numberChar_ne (k := k) hc
  simp [isBlank, hne ' ' rfl, hne '\n' rfl, hne '\t' rfl, hne '\r' rfl]

theorem value_number {c : Char} (hc : isNumberChar c = true) (n : Nat) (cs : List Char) :
    value (n + 1) (c :: cs) = number (c :: cs) := by
  have hne := fun k => numberChar_ne (k := k) hc
  rw [value, skipBlanks_cons (numberChar_not_blank hc)]
  simp only [if_neg (hne '"' rfl), if_neg (hne '[' rfl), if_neg (hne '\x7b' rfl), if_neg (hne 'n' rfl),
    if_neg (hne 't' rfl), if_neg (hne 'f' rfl)]

theorem write_head (d : Doc) : ∃ c r, d.write (docFormat gap) = c :: r ∧ isBlank c = false ∧ c ≠ ']' := by
  cases d with
  | null => exact ⟨_, _, rfl, rfl, by decide⟩
  | bool b => cases b <;> exact ⟨_, _, rfl, rfl, by decide⟩
  | string s => exact ⟨_, _, rfl, rfl, by decide⟩
  | array items => cases items <;> exact ⟨_, _, rfl, rfl, by decide⟩
  | object fields => cases fields <;> exact ⟨_, _, rfl, rfl, by decide⟩
  | number n =>
      cases n with
      | nonFinite w => cases w <;> exact ⟨_, _, rfl, rfl, by decide⟩
      | numeral n =>
          obtain ⟨c, r, hcs, hc⟩ := isNumber_head n.valid
          exact ⟨c, r, hcs, numberChar_not_blank hc, numberChar_ne hc rfl⟩

/-- What reading a written value comes to, with fuel for all its characters. -/
def Reads (gap : List Char) (d : Doc) : Prop :=
  ∀ n rest, Ends rest → (d.write (docFormat gap)).length ≤ n →
    value n (d.write (docFormat gap) ++ rest) = if d.allNumbers Literal.isNumeral then some (d, rest) else none

theorem ends_cons {c : Char} (hc : isNumberChar c = false) (cs : List Char) : Ends (c :: cs) := by
  rintro _ ⟨⟩
  exact hc

theorem ends_writeItems (items : List Doc) (rest : List Char) :
    Ends (writeItems (docFormat gap) items ++ rest) := by
  cases items <;> exact ends_cons rfl _

theorem ends_writeFields (fs : List (List Letter × Doc)) (rest : List Char) :
    Ends (writeFields (docFormat gap) fs ++ rest) := by
  cases fs <;> exact ends_cons rfl _

theorem items_write (hgap : ∀ c ∈ gap, isBlank c = true) (ds : List Doc) (hds : ∀ d ∈ ds, Reads gap d) (n : Nat)
    (rest : List Char) (hn : (writeItems (docFormat gap) ds).length ≤ n) :
    items n (writeItems (docFormat gap) ds ++ rest) =
      if allNumbersItems Literal.isNumeral ds then some (ds, rest) else none := by
  induction ds generalizing n with
  | nil =>
      cases n with
      | zero => exact absurd hn (by simp [writeItems])
      | succ n => rfl
  | cons d ds ih =>
      obtain ⟨hd, hds⟩ := List.forall_mem_cons.mp hds
      cases n with
      | zero => exact absurd hn (by simp [writeItems])
      | succ n =>
          have hlen : gap.length + ((d.write (docFormat gap)).length + (writeItems (docFormat gap) ds).length) ≤
              n := by
            simpa [writeItems, docFormat] using hn
          have htext : writeItems (docFormat gap) (d :: ds) ++ rest =
              ',' :: (gap ++ (d.write (docFormat gap) ++ (writeItems (docFormat gap) ds ++ rest))) := by
            simp [writeItems, docFormat]
          rw [htext, items, skipBlanks_cons rfl]
          simp only [if_neg (show ',' ≠ ']' by decide), if_true, value_gap hgap,
            hd n _ (ends_writeItems ds rest) (by omega), allNumbersItems]
          by_cases hnumbers : d.allNumbers Literal.isNumeral = true
          · simp only [hnumbers, if_true, Option.bind_eq_bind, Option.bind_some, ih hds n (by omega),
              Bool.true_and]
            split <;> rfl
          · simp [hnumbers]

theorem field_write (hgap : ∀ c ∈ gap, isBlank c = true) {key : List Letter} {d : Doc} (hd : Reads gap d) (n : Nat)
    {rest : List Char} (hrest : Ends rest) (hn : (d.write (docFormat gap)).length < n) :
    field n ('"' :: (key.flatMap Letter.chars ++ '"' :: ':' :: (gap ++ (d.write (docFormat gap) ++ rest)))) =
      if d.allNumbers Literal.isNumeral then some ((key, d), rest) else none := by
  cases n with
  | zero => exact absurd hn (Nat.not_lt_zero _)
  | succ n =>
      rw [field, skipBlanks_cons rfl]
      simp only [if_true, letters_text, Option.bind_eq_bind, Option.bind_some,
        skipBlanks_cons (show isBlank ':' = false from rfl),
        List.head?_cons, List.tail_cons, value_gap hgap, hd n _ hrest (Nat.le_of_lt_succ hn)]
      split <;> rfl

theorem fields_write (hgap : ∀ c ∈ gap, isBlank c = true) (fs : List (List Letter × Doc))
    (hfs : ∀ f ∈ fs, Reads gap f.2) (n : Nat) (rest : List Char)
    (hn : (writeFields (docFormat gap) fs).length ≤ n) :
    fields n (writeFields (docFormat gap) fs ++ rest) =
      if allNumbersFields Literal.isNumeral fs then some (fs, rest) else none := by
  induction fs generalizing n with
  | nil =>
      cases n with
      | zero => exact absurd hn (by simp [writeFields])
      | succ n => rfl
  | cons f fs ih =>
      obtain ⟨key, d⟩ := f
      obtain ⟨hf, hfs⟩ := List.forall_mem_cons.mp hfs
      replace hf : Reads gap d := hf
      cases n with
      | zero => exact absurd hn (by simp [writeFields])
      | succ n =>
          have hlen : gap.length + ((key.flatMap Letter.chars).length + (gap.length +
              ((d.write (docFormat gap)).length + (writeFields (docFormat gap) fs).length) + 1 + 1) + 1) ≤ n := by
            simpa [writeFields, docFormat] using hn
          have htext : writeFields (docFormat gap) ((key, d) :: fs) ++ rest =
              ',' :: (gap ++ ('"' :: (key.flatMap Letter.chars ++ '"' :: ':' :: (gap ++ (d.write (docFormat gap) ++
                (writeFields (docFormat gap) fs ++ rest)))))) := by
            simp [writeFields, docFormat]
          rw [htext, fields, skipBlanks_cons rfl]
          simp only [if_neg (show ',' ≠ '\x7d' by decide), if_true, field_gap hgap,
            field_write hgap hf n (ends_writeFields fs rest) (by omega), allNumbersFields]
          by_cases hnumbers : d.allNumbers Literal.isNumeral = true
          · simp only [hnumbers, if_true, Option.bind_eq_bind, Option.bind_some, ih hfs n (by omega),
              Bool.true_and]
            split <;> rfl
          · simp [hnumbers]

theorem reads_number (l : Literal) : Reads gap (.number l) := by
  intro n rest hrest hn
  obtain ⟨c, r, hcs, hblank, -⟩ := @write_head gap (.number l)
  cases n with
  | zero => exact absurd hn (by simp [hcs])
  | succ n =>
      cases l with
      | nonFinite w =>
          have hvalue : value (n + 1) (w.chars ++ rest) = number (w.chars ++ rest) := by
            cases w <;> rfl
          exact hvalue.trans (number_nonFinite w rest)
      | numeral m =>
          obtain ⟨c', r', hchars, hc⟩ := isNumber_head m.valid
          have hvalue : value (n + 1) (m.chars ++ rest) = number (m.chars ++ rest) := by
            rw [hchars]
            exact value_number hc n _
          exact hvalue.trans (number_numeral m hrest)

theorem reads_string (s : List Letter) : Reads gap (.string s) := by
  intro n rest _ hn
  cases n with
  | zero => exact absurd hn (by simp [JsonTree.write])
  | succ n =>
      have htext : (JsonTree.string s).write (docFormat gap) ++ rest =
          '"' :: (s.flatMap Letter.chars ++ '"' :: rest) := by
        simp [JsonTree.write, docFormat]
      rw [htext, value, skipBlanks_cons rfl]
      simp only [if_true, letters_text]
      rfl

theorem reads_array (hgap : ∀ c ∈ gap, isBlank c = true) {ds : List Doc} (hds : ∀ d ∈ ds, Reads gap d) :
    Reads gap (.array ds) := by
  intro n rest _ hn
  cases n with
  | zero => cases ds <;> exact absurd hn (by simp [JsonTree.write])
  | succ n =>
      cases ds with
      | nil => rfl
      | cons d ds =>
          obtain ⟨hd, hds⟩ := List.forall_mem_cons.mp hds
          have hlen : (d.write (docFormat gap)).length + (writeItems (docFormat gap) ds).length ≤ n := by
            simpa [JsonTree.write] using hn
          have htext : (JsonTree.array (d :: ds)).write (docFormat gap) ++ rest =
              '[' :: (d.write (docFormat gap) ++ (writeItems (docFormat gap) ds ++ rest)) := by
            simp [JsonTree.write]
          obtain ⟨c, r, hcs, hblank, hclose⟩ := @write_head gap d
          have hhead : (skipBlanks (d.write (docFormat gap) ++ (writeItems (docFormat gap) ds ++ rest))).head? ≠
              some ']' := by
            rw [hcs, List.cons_append, skipBlanks_cons hblank]
            simpa using hclose
          rw [htext, value, skipBlanks_cons rfl]
          simp only [if_neg (show '[' ≠ '"' by decide), if_true, if_neg hhead,
            hd n _ (ends_writeItems ds rest) (by omega), JsonTree.allNumbers, allNumbersItems]
          by_cases hnumbers : d.allNumbers Literal.isNumeral = true
          · simp only [hnumbers, if_true, Option.bind_eq_bind, Option.bind_some,
              items_write hgap ds hds n rest (by omega), Bool.true_and]
            split <;> rfl
          · simp [hnumbers]

theorem reads_object (hgap : ∀ c ∈ gap, isBlank c = true) {fs : List (List Letter × Doc)}
    (hfs : ∀ f ∈ fs, Reads gap f.2) : Reads gap (.object fs) := by
  intro n rest _ hn
  cases n with
  | zero => cases fs <;> exact absurd hn (by simp [JsonTree.write])
  | succ n =>
      cases fs with
      | nil => rfl
      | cons f fs =>
          obtain ⟨key, d⟩ := f
          obtain ⟨hd, hfs⟩ := List.forall_mem_cons.mp hfs
          replace hd : Reads gap d := hd
          have hlen : (key.flatMap Letter.chars).length + (gap.length + ((d.write (docFormat gap)).length +
              (writeFields (docFormat gap) fs).length) + 1 + 1) + 1 ≤ n := by
            simpa [JsonTree.write, docFormat] using hn
          have htext : (JsonTree.object ((key, d) :: fs)).write (docFormat gap) ++ rest =
              '\x7b' :: '"' :: (key.flatMap Letter.chars ++ '"' :: ':' :: (gap ++ (d.write (docFormat gap) ++
                (writeFields (docFormat gap) fs ++ rest)))) := by
            simp [JsonTree.write, docFormat]
          rw [htext, value, skipBlanks_cons rfl]
          simp only [if_neg (show '\x7b' ≠ '"' by decide), if_neg (show '\x7b' ≠ '[' by decide), if_true,
            skipBlanks_cons (show isBlank '"' = false from rfl), List.head?_cons, Option.some.injEq,
            if_neg (show '"' ≠ '\x7d' by decide), field_write hgap hd n (ends_writeFields fs rest) (by omega),
            JsonTree.allNumbers, allNumbersFields]
          by_cases hnumbers : d.allNumbers Literal.isNumeral = true
          · simp only [hnumbers, if_true, Option.bind_eq_bind, Option.bind_some,
              fields_write hgap fs hfs n rest (by omega), Bool.true_and]
            split <;> rfl
          · simp [hnumbers]

theorem value_write (hgap : ∀ c ∈ gap, isBlank c = true) (d : Doc) : Reads gap d := by
  induction d using JsonTree.induct with
  | null =>
      intro n rest _ hn
      cases n with
      | zero => exact absurd hn (by simp [JsonTree.write])
      | succ n => rfl
  | bool b =>
      intro n rest _ hn
      cases n with
      | zero => cases b <;> exact absurd hn (by simp [JsonTree.write])
      | succ n => cases b <;> rfl
  | number l => exact reads_number l
  | string s => exact reads_string s
  | array ds ih => exact reads_array hgap ih
  | object fs ih => exact reads_object hgap ih

theorem scan_write (hgap : ∀ c ∈ gap, isBlank c = true) (d : Doc) :
    scan (d.write (docFormat gap)) = if d.allNumbers Literal.isNumeral then some d else none := by
  have hvalue := value_write hgap d ((d.write (docFormat gap)).length + 1) [] (fun c h =>
    absurd h (Option.not_mem_none c))
    (Nat.le_succ _)
  rw [List.append_nil] at hvalue
  rw [scan, hvalue]
  split <;> rfl

end RoundTrip

end MLRunX.JsonText
