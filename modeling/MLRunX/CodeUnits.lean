import Mathlib.Data.List.DropRight
import MLRunX.JsonMeaning

namespace MLRunX.CodeUnits

open JsonMeaning JsonText

abbrev JsString := List (Fin 65536)

def codeUnit (n : Nat) : Fin 65536 := Fin.ofNat 65536 n

def unitsOf (c : Char) : JsString :=
  if c.toNat < 65536 then [codeUnit c.toNat]
  else [codeUnit (0xD800 + (c.toNat - 0x10000) / 1024), codeUnit (0xDC00 + (c.toNat - 0x10000) % 1024)]

def units (s : String) : JsString := s.toList.flatMap unitsOf

/-- The white space and the line ends of the language. -/
def isSpace (u : Fin 65536) : Bool :=
  (9 ≤ u.1 && u.1 ≤ 13) || (0x2000 ≤ u.1 && u.1 ≤ 0x200A) ||
    [0x20, 0xA0, 0x1680, 0x2028, 0x2029, 0x202F, 0x205F, 0x3000, 0xFEFF].contains u.1

def trim (s : JsString) : JsString := (s.dropWhile isSpace).rdropWhile isSpace

/-- A text without the space around it, cut to a number of units. -/
def cut (n : Nat) (s : JsString) : JsString := (trim s).take n

/-- The last unit is no space. -/
def Unpadded (s : JsString) : Prop := ∀ u ∈ s.getLast?, isSpace u = false

instance : DecidablePred Unpadded := fun s => by
  unfold Unpadded
  infer_instance

section Cuts

variable {n : Nat} {s : JsString}

theorem rdropWhile_eq_self {p : Fin 65536 → Bool} : s.rdropWhile p = s ↔ ∀ u ∈ s.getLast?, p u = false := by
  rw [List.rdropWhile_eq_self_iff]
  constructor
  · intro h u hu
    obtain ⟨hne, rfl⟩ := List.mem_getLast?_eq_getLast hu
    simpa using h hne
  · intro h hne
    simpa using h _ (List.getLast?_eq_some_getLast hne)

theorem unpadded_trim (s : JsString) : Unpadded (trim s) := rdropWhile_eq_self.mp (List.rdropWhile_idempotent _ _)

theorem head_trim (s : JsString) : ∀ u ∈ (trim s).head?, isSpace u = false := by
  intro u hu
  obtain ⟨rest, hrest⟩ := (List.rdropWhile_prefix isSpace (s.dropWhile isSpace))
  have hhead : (s.dropWhile isSpace).head? = some u := by
    have hu : ((s.dropWhile isSpace).rdropWhile isSpace).head? = some u := hu
    rw [← hrest, List.head?_append, hu]
    rfl
  have hnot := List.head?_dropWhile_not isSpace s
  rw [hhead] at hnot
  simpa using hnot

theorem head_cut (n : Nat) (s : JsString) : ∀ u ∈ (cut n s).head?, isSpace u = false := by
  intro u hu
  cases n with
  | zero => cases hu
  | succ n => exact head_trim s u (by rwa [cut, List.head?_take, if_neg (Nat.succ_ne_zero n)] at hu)

theorem length_cut (n : Nat) (s : JsString) : (cut n s).length ≤ n := by
  rw [cut, List.length_take]
  exact Nat.min_le_left _ _

theorem dropWhile_of_head (h : ∀ u ∈ s.head?, isSpace u = false) : s.dropWhile isSpace = s := by
  cases s with
  | nil => rfl
  | cons u us => rw [List.dropWhile_cons_of_neg (by simp [h u rfl])]

theorem cut_short (h : s.length ≤ n) : cut n s = trim s := by
  refine List.take_of_length_le (Nat.le_trans ?_ h)
  refine Nat.le_trans (List.rdropWhile_prefix isSpace _).length_le ?_
  exact (List.dropWhile_suffix isSpace).length_le

theorem cut_eq_self (h : s.length ≤ n) (hhead : ∀ u ∈ s.head?, isSpace u = false) : cut n s = s ↔
    Unpadded s := by
  rw [cut_short h, trim, dropWhile_of_head hhead]
  exact rdropWhile_eq_self

theorem cut_cut : cut n (cut n s) = cut n s ↔ Unpadded (cut n s) := cut_eq_self (length_cut n s) (head_cut n s)

theorem unpadded_cut (h : s.length ≤ n) : Unpadded (cut n s) := by
  rw [cut_short h]
  exact unpadded_trim s

theorem cut_ne_nil (hne : s ≠ []) (hhead : ∀ u ∈ s.head?, isSpace u = false) (hn : n ≠ 0) : cut n s ≠ [] := by
  cases s with
  | nil => exact absurd rfl hne
  | cons u us =>
      intro h
      rw [cut, List.take_eq_nil_iff, or_iff_right hn, trim, dropWhile_of_head hhead,
        List.rdropWhile_eq_nil_iff] at h
      have hu := h u List.mem_cons_self
      rw [hhead u rfl] at hu
      cases hu

end Cuts

/-- The character that two halves stand for. -/
def charOf (u v : Fin 65536) : Char := Char.ofNat (0x10000 + (u.1 - 0xD800) * 1024 + (v.1 - 0xDC00))

def quoteUnit (u : Fin 65536) : List Letter :=
  if isHigh u || isLow u then [.unit u] else serdeLetters (Char.ofNat u.1)

/-- The letters of a text in quotes. A half without its other half is spelled by its digits. -/
def quote : JsString → List Letter
  | [] => []
  | [u] => quoteUnit u
  | u :: v :: us =>
      if isHigh u && isLow v then serdeLetters (charOf u v) ++ quote us else quoteUnit u ++ quote (v :: us)

def letterUnits : Letter → JsString
  | .plain c => unitsOf c.1
  | .short e => unitsOf e.char
  | .unit u => [u]

def unquote (ls : List Letter) : JsString := ls.flatMap letterUnits

theorem unquote_append (ls ls' : List Letter) : unquote (ls ++ ls') = unquote ls ++ unquote ls' :=
  List.flatMap_append

theorem unquote_serdeLetters (c : Char) : unquote (serdeLetters c) = unitsOf c := by
  unfold serdeLetters
  cases hshort : shortOf c with
  | some e => simp [unquote, letterUnits, shortOf_char hshort]
  | none =>
      by_cases h : isPlain c = true
      · simp [unquote, letterUnits, h]
      · have hc := toNat_of_not_plain hshort h
        have hlt : c.toNat < 65536 := by omega
        simp only [dif_neg h, unquote, List.flatMap_singleton, unitsOf, if_pos hlt, unit_eq hlt, letterUnits]
        exact congrArg (fun u => [u]) (Fin.ext (Nat.mod_eq_of_lt hlt).symm)

theorem toNat_ofNat {n : Nat} (h : n.isValidChar) : (Char.ofNat n).toNat = n := by
  rw [Char.ofNat, dif_pos h]
  rfl

theorem unitsOf_ofNat {u : Fin 65536} (h : (isHigh u || isLow u) = false) : unitsOf (Char.ofNat u.1) = [u] := by
  have hvalid : u.1.isValidChar := by
    simp only [isHigh, isLow, Bool.or_eq_false_iff, Bool.and_eq_false_iff, decide_eq_false_iff_not] at h
    unfold Nat.isValidChar
    omega
  rw [unitsOf, toNat_ofNat hvalid, if_pos u.isLt]
  exact congrArg (fun u => [u]) (Fin.ext (Nat.mod_eq_of_lt u.isLt))

theorem unitsOf_charOf {u v : Fin 65536} (hu : isHigh u = true) (hv : isLow v = true) :
    unitsOf (charOf u v) = [u, v] := by
  simp only [isHigh, isLow, Bool.and_eq_true, decide_eq_true_eq] at hu hv
  have hvalid : (0x10000 + (u.1 - 0xD800) * 1024 + (v.1 - 0xDC00)).isValidChar := by
    unfold Nat.isValidChar
    omega
  rw [unitsOf, charOf, toNat_ofNat hvalid, if_neg (by omega)]
  have hhigh : (0xD800 + (0x10000 + (u.1 - 0xD800) * 1024 + (v.1 - 0xDC00) - 0x10000) / 1024) % 65536 =
    u.1 := by omega
  have hlow : (0xDC00 + (0x10000 + (u.1 - 0xD800) * 1024 + (v.1 - 0xDC00) - 0x10000) % 1024) % 65536 =
    v.1 := by omega
  exact congrArg₂ (fun u v => [u, v]) (Fin.ext hhigh) (Fin.ext hlow)

theorem unquote_quoteUnit (u : Fin 65536) : unquote (quoteUnit u) = [u] := by
  unfold quoteUnit
  split
  · rfl
  · rename_i h
    rw [unquote_serdeLetters, unitsOf_ofNat (by simpa using h)]

theorem unquote_quote (s : JsString) : unquote (quote s) = s := by
  induction s using quote.induct with
  | case1 => rfl
  | case2 u => exact unquote_quoteUnit u
  | case3 u v us h ih =>
      obtain ⟨hu, hv⟩ := Bool.and_eq_true_iff.mp h
      rw [quote, if_pos h, unquote_append, unquote_serdeLetters, unitsOf_charOf hu hv, ih]
      rfl
  | case4 u v us h ih =>
      rw [quote, if_neg h, unquote_append, unquote_quoteUnit, ih]
      rfl

/-- A value of the language as it is put down in JSON. Numbers are kept as they are written. -/
abbrev JsValue := JsonTree JsString Literal

def jsonParse (raw : List Char) : Option JsValue := (scan raw).map (JsonTree.map unquote id)

def jsonStringify (value : JsValue) : List Char := (value.map quote id).write (docFormat [])

theorem jsonParse_jsonStringify {value : JsValue} (h : value.allNumbers Literal.isNumeral = true) :
    jsonParse (jsonStringify value) = some value := by
  rw [jsonParse, jsonStringify, scan_write (fun _ hc => absurd hc List.not_mem_nil), allNumbers_map]
  simp only [id, h, if_true, Option.map_some]
  exact congrArg some (map_map_cancel unquote_quote (fun _ => rfl) value)

end MLRunX.CodeUnits
