import MLRunX.StructuredLogging

namespace MLRunX.MessageLimit

open BatchWire (Py DumpOptions intTree docOf scan_write_format)
open JsonMeaning JsonNumerals JsonText
open StructuredLogging (LogCall compact envelopeTree)

def fullEncoding (kind : String) (payload : Py) : List Char := (envelopeTree kind payload).write compact.format

def previewLen (maxChars : Nat) : Nat := maxChars - 220

def truncated (kind : String) (encoded : List Char) (maxChars : Nat) : Py :=
  .object [("kind", .string kind), ("truncated", .bool true), ("original_size", intTree encoded.length),
    ("preview", .string (String.ofList (encoded.take (previewLen maxChars))))]

/-- Whatever the kind, the payload and the limit are. -/
def serializeStructuredMessage (kind : String) (payload : Py) (maxChars : Nat) : String :=
  let encoded := fullEncoding kind payload
  if encoded.length ≤ maxChars then String.ofList encoded
  else String.ofList ((truncated kind encoded maxChars).write compact.format)

/-- An object that says of itself that it was truncated. -/
def Marked (cs : List Char) : Prop :=
  ∃ fields key, scan cs = some (.object fields) ∧ (key, .bool true) ∈ fields ∧
    text key = some "truncated".toList

structure FitsLimit (kind : String) (payload : Py) (maxChars : Nat) : Prop where
  length : (serializeStructuredMessage kind payload maxChars).length ≤ maxChars
  valid : (scan (serializeStructuredMessage kind payload maxChars).toList).isSome = true
  marked : Marked (serializeStructuredMessage kind payload maxChars).toList ↔
    maxChars < (fullEncoding kind payload).length

def spelled (s : String) : List Char := (asciiSpelling.spell s).flatMap Letter.chars

def needsEscape (c : Char) : Bool := c == '"' || c == '\\'

/-- What is kept back for the rest of a truncated message suffices for the kind, for the
number that stands there, and for what is escaped a second time. -/
def Roomy (kind : String) (payload : Py) (maxChars : Nat) : Prop :=
  let encoded := fullEncoding kind payload
  encoded.length ≤ maxChars ∨ (spelled kind).length + (Nat.toDigits 10 encoded.length).length +
    (encoded.take (previewLen maxChars)).countP needsEscape ≤ 162

instance (kind : String) (payload : Py) (maxChars : Nat) : Decidable (Roomy kind payload maxChars) := by
  unfold Roomy
  infer_instance

def Printable (c : Char) : Prop := 32 ≤ c.toNat ∧ c.toNat ≤ 126

instance (c : Char) : Decidable (Printable c) := by
  unfold Printable
  infer_instance

theorem printable_of_all {cs : List Char} (h : cs.all (fun c => 32 ≤ c.toNat && c.toNat ≤ 126) = true) :
    ∀ c ∈ cs, Printable c := by
  intro c hc
  have hone := List.all_eq_true.mp h c hc
  rw [Bool.and_eq_true, decide_eq_true_iff, decide_eq_true_iff] at hone
  exact hone

theorem printable_hexDigit (d : Nat) (h : d < 16) : Printable (hexDigit d) :=
  @printable_of_all ((List.range 16).map hexDigit) (by decide) _ (List.mem_map_of_mem (List.mem_range.mpr h))

theorem printable_asciiLetters (c : Char) : ∀ l ∈ asciiLetters c, ∀ d ∈ l.chars, Printable d := by
  have hunit : ∀ n, ∀ d ∈ (unit n).chars, Printable d := by
    intro n d hd
    have hlt : n % 65536 < 65536 := Nat.mod_lt _ (by decide)
    simp only [unit, Letter.chars, List.mem_cons, List.not_mem_nil, or_false] at hd
    rcases hd with rfl | rfl | rfl | rfl | rfl | rfl
    · decide
    · decide
    · exact printable_hexDigit _ (by omega)
    · exact printable_hexDigit _ (by omega)
    · exact printable_hexDigit _ (by omega)
    · exact printable_hexDigit _ (by omega)
  intro l hl d hd
  unfold asciiLetters at hl
  split at hl
  · rename_i e _
    obtain rfl := List.mem_singleton.mp hl
    cases e <;> exact printable_of_all (by decide) d hd
  · split at hl
    · rename_i hplain
      obtain rfl := List.mem_singleton.mp hl
      obtain rfl := List.mem_singleton.mp hd
      obtain ⟨hplain, hle⟩ := hplain
      rw [isPlain, Bool.and_eq_true, decide_eq_true_iff] at hplain
      exact ⟨hplain.2, hle⟩
    · split at hl
      · obtain rfl := List.mem_singleton.mp hl
        exact hunit _ d hd
      · simp only [List.mem_cons, List.not_mem_nil, or_false] at hl
        rcases hl with rfl | rfl
        · exact hunit _ d hd
        · exact hunit _ d hd

theorem printable_spelled (s : String) : ∀ c ∈ spelled s, Printable c := by
  intro c hc
  obtain ⟨l, hl, hc⟩ := List.mem_flatMap.mp hc
  obtain ⟨a, -, hl⟩ := List.mem_flatMap.mp hl
  exact printable_asciiLetters a l hl c hc

theorem printable_numberChar {c : Char} (h : isNumberChar c = true) : Printable c := by
  rw [isNumberChar, Bool.or_eq_true] at h
  rcases h with h | h
  · have hdigit : 48 ≤ c.toNat ∧ c.toNat ≤ 57 := Char.isDigit_iff_toNat.mp h
    exact ⟨by omega, by omega⟩
  · exact @printable_of_all ['+', '-', '.', 'e', 'E'] (by decide) c (List.contains_iff_mem.mp h)

theorem printable_literal (l : Literal) : ∀ c ∈ l.chars, Printable c := by
  cases l with
  | numeral n => exact fun c hc => printable_numberChar (isNumber_chars n.valid c hc)
  | nonFinite w => cases w <;> exact printable_of_all (by decide)

/-- The characters of a written tree that are not in its texts and numbers. -/
def marks : List Char :=
  ['n', 'u', 'l', 't', 'r', 'e', 'f', 'a', 's', '"', '[', ']', '\x7b', '\x7d', ',', ':']

theorem forall_write {κ ν : Type} {F : Format κ ν} {p : Char → Prop} (hmarks : ∀ c ∈ marks, p c)
    (htext : ∀ s, ∀ c ∈ F.text s, p c) (hnumber : ∀ n, ∀ c ∈ F.number n, p c) (hgap : ∀ c ∈ F.gap, p c)
    (t : JsonTree κ ν) : ∀ c ∈ t.write F, p c := by
  have hmarks' := hmarks
  simp only [marks, List.forall_mem_cons] at hmarks'
  obtain ⟨hn, hu, hl, ht, hr, he, hf, ha, hs, hquote, hopen, hclose, hbrace, hend, hcomma, hcolon, -⟩ := hmarks'
  have hitems (items : List (JsonTree κ ν)) (ih : ∀ d ∈ items, ∀ c ∈ d.write F, p c) :
    ∀ c ∈ writeItems F items, p c := by
    induction items with
    | nil => simpa only [writeItems, List.forall_mem_singleton] using hclose
    | cons d items ih' =>
        obtain ⟨hd, hitems⟩ := List.forall_mem_cons.mp ih
        simp only [writeItems, List.forall_mem_cons, List.forall_mem_append]
        exact ⟨hcomma, hgap, hd, ih' hitems⟩
  have hfields (fields : List (κ × JsonTree κ ν)) (ih : ∀ f ∈ fields, ∀ c ∈ f.2.write F, p c) :
      ∀ c ∈ writeFields F fields, p c := by
    induction fields with
    | nil => simpa only [writeFields, List.forall_mem_singleton] using hend
    | cons f fields ih' =>
        obtain ⟨key, d⟩ := f
        obtain ⟨hd, hfields⟩ := List.forall_mem_cons.mp ih
        simp only [writeFields, List.forall_mem_cons, List.forall_mem_append]
        exact ⟨hcomma, hgap, hquote, htext key, hquote, hcolon, hgap, hd, ih' hfields⟩
  induction t using JsonTree.induct with
  | null => simp only [JsonTree.write, List.forall_mem_cons]; exact ⟨hn, hu, hl, hl, List.forall_mem_nil _⟩
  | bool b =>
      cases b
      · simp only [JsonTree.write, List.forall_mem_cons]
        exact ⟨hf, ha, hl, hs, he, List.forall_mem_nil _⟩
      · simp only [JsonTree.write, List.forall_mem_cons]
        exact ⟨ht, hr, hu, he, List.forall_mem_nil _⟩
  | number n => exact hnumber n
  | string s =>
      simp only [JsonTree.write, List.forall_mem_cons, List.forall_mem_append]
      exact ⟨hquote, htext s, hquote, List.forall_mem_nil _⟩
  | array items ih =>
      cases items with
      | nil =>
          simp only [JsonTree.write, List.forall_mem_cons]
          exact ⟨hopen, hclose, List.forall_mem_nil _⟩
      | cons d items =>
          obtain ⟨hd, hrest⟩ := List.forall_mem_cons.mp ih
          simp only [JsonTree.write, List.forall_mem_cons, List.forall_mem_append]
          exact ⟨hopen, hd, hitems items hrest⟩
  | object fields ih =>
      cases fields with
      | nil =>
          simp only [JsonTree.write, List.forall_mem_cons]
          exact ⟨hbrace, hend, List.forall_mem_nil _⟩
      | cons f fields =>
          obtain ⟨key, d⟩ := f
          obtain ⟨hd, hrest⟩ := List.forall_mem_cons.mp ih
          simp only [JsonTree.write, List.forall_mem_cons, List.forall_mem_append]
          exact ⟨hbrace, hquote, htext key, hquote, hcolon, hgap, hd, hfields fields hrest⟩

theorem printable_write (t : Py) : ∀ c ∈ t.write compact.format, Printable c :=
  forall_write (printable_of_all (by decide)) printable_spelled printable_literal (List.forall_mem_nil _) t

theorem length_asciiLetters {c : Char} (h : Printable c) :
    ((asciiLetters c).flatMap Letter.chars).length = 1 + if needsEscape c then 1 else 0 := by
  have hall : ∀ n < 127, 32 ≤ n → ((asciiLetters (Char.ofNat n)).flatMap Letter.chars).length =
      1 + if needsEscape (Char.ofNat n) then 1 else 0 := by
    decide +kernel
  rw [← Char.ofNat_toNat c]
  exact hall c.toNat (Nat.lt_succ_of_le h.2) h.1

theorem length_spelled {s : String} (h : ∀ c ∈ s.toList, Printable c) :
    (spelled s).length = s.toList.length + s.toList.countP needsEscape := by
  rw [spelled, Spelling.spell, List.flatMap_assoc]
  generalize s.toList = cs at h ⊢
  induction cs with
  | nil => rfl
  | cons c cs ih =>
      obtain ⟨hc, hcs⟩ := List.forall_mem_cons.mp h
      have hone := length_asciiLetters hc
      rw [List.flatMap_cons, List.length_append, List.length_cons, List.countP_cons, ih hcs]
      change ((asciiLetters c).flatMap Letter.chars).length + _ = _
      omega

theorem length_truncated (kind : String) {encoded : List Char} (h : ∀ c ∈ encoded, Printable c) {maxChars : Nat}
    (hlong : maxChars < encoded.length) : ((truncated kind encoded maxChars).write compact.format).length =
      58 + previewLen maxChars + (spelled kind).length + (Nat.toDigits 10 encoded.length).length +
        (encoded.take (previewLen maxChars)).countP needsEscape := by
  have hpreview : (spelled (String.ofList (encoded.take (previewLen maxChars)))).length =
      previewLen maxChars + (encoded.take (previewLen maxChars)).countP needsEscape := by
    rw [length_spelled]
    · rw [String.toList_ofList, List.length_take, Nat.min_eq_left]
      exact (Nat.sub_le maxChars 220).trans hlong.le
    · rw [String.toList_ofList]
      exact fun c hc => h c (List.mem_of_mem_take hc)
  have hkeys : (spelled "kind").length = 4 ∧ (spelled "truncated").length = 9 ∧
    (spelled "original_size").length = 13 ∧
      (spelled "preview").length = 7 := by decide +kernel
  have hsize : (Literal.chars (.numeral (intNumeral (encoded.length : Int)))).length =
      (Nat.toDigits 10 encoded.length).length := rfl
  change (spelled _).length = _ at hpreview
  have htext (s : String) : compact.format.text s = spelled s := rfl
  have hnumber (l : Literal) : compact.format.number l = l.chars := rfl
  have hgap : compact.format.gap = [] := rfl
  simp only [truncated, intTree, JsonTree.write, writeFields, htext, hnumber, hgap, List.length_cons,
    List.length_append,
    List.nil_append, List.length_nil, hsize, hpreview, hkeys]
  omega

theorem printable_full (kind : String) (payload : Py) : ∀ c ∈ fullEncoding kind payload, Printable c :=
  printable_write (envelopeTree kind payload)

theorem serialize_long {kind : String} {payload : Py} {maxChars : Nat}
    (hlong : maxChars < (fullEncoding kind payload).length) : serializeStructuredMessage kind payload maxChars =
      String.ofList ((truncated kind (fullEncoding kind payload) maxChars).write compact.format) :=
  if_neg (Nat.not_le.mpr hlong)

theorem scan_full {kind : String} {payload : Py} (hnumbers : payload.allNumbers Literal.isNumeral = true) :
    scan (fullEncoding kind payload) = some (docOf asciiSpelling (envelopeTree kind payload)) := by
  rw [fullEncoding, scan_write_format, if_pos]
  · rfl
  · simp [envelopeTree, JsonTree.allNumbers, allNumbersFields, hnumbers]

theorem scan_truncated (kind : String) (encoded : List Char) (maxChars : Nat) :
    scan ((truncated kind encoded maxChars).write compact.format) =
      some (docOf asciiSpelling (truncated kind encoded maxChars)) := by
  rw [scan_write_format, if_pos]
  · rfl
  · simp [truncated, intTree, JsonTree.allNumbers, allNumbersFields, Literal.isNumeral]

theorem marked_truncated (kind : String) (encoded : List Char) (maxChars : Nat) :
    Marked ((truncated kind encoded maxChars).write compact.format) :=
  ⟨_, asciiSpelling.spell "truncated", scan_truncated kind encoded maxChars,
    List.mem_cons_of_mem _ List.mem_cons_self,
    text_spell _ _⟩

theorem not_marked_full {kind : String} {payload : Py} (hnumbers : payload.allNumbers Literal.isNumeral = true) :
    ¬Marked (fullEncoding kind payload) := by
  rintro ⟨fields, key, hscan, hmem, htext⟩
  rw [scan_full hnumbers] at hscan
  obtain rfl := JsonTree.object.inj (Option.some.inj hscan)
  simp only [mapFields, List.mem_cons, List.not_mem_nil, or_false, Prod.mk.injEq] at hmem
  rcases hmem with ⟨rfl, hvalue⟩ | ⟨rfl, -⟩
  · cases hvalue
  · rw [text_spell] at htext
    exact absurd (Option.some.inj htext) (by decide)

def emptyLabels : Py := .object [("labels", .array (List.replicate 250 (.string "")))]

end MLRunX.MessageLimit
