import Mathlib.Algebra.GroupWithZero.Nat
import Mathlib.Data.List.DropRight
import Mathlib.Data.List.Infix

namespace MLRunX.Text

/-- The Unicode property White_Space, which decides what trimming removes. -/
def isWhitespace (c : Char) : Bool :=
  (9 ≤ c.toNat && c.toNat ≤ 13) || (0x2000 ≤ c.toNat && c.toNat ≤ 0x200A) ||
    [0x20, 0x85, 0xA0, 0x1680, 0x2028, 0x2029, 0x202F, 0x205F, 0x3000].contains c.toNat

def trimChars (cs : List Char) : List Char :=
  ((cs.dropWhile isWhitespace).reverse.dropWhile isWhitespace).reverse

def trim (s : String) : String := String.ofList (trimChars s.toList)

def toAsciiLowercase (s : String) : String := String.ofList (s.toList.map Char.toLower)

def eqIgnoreAsciiCase (s t : String) : Bool := toAsciiLowercase s == toAsciiLowercase t

/-- The number of bytes of a text in UTF-8, which is what a byte length counts. -/
def byteLength (s : String) : Nat := (s.toList.map Char.utf8Size).sum

def bytes (s : String) : List UInt8 := s.toList.flatMap String.utf8EncodeChar

/-- The leading characters of exactly `n` bytes, if the bytes end at a character. -/
def takeBytes : List Char → Nat → Option (List Char)
  | _, 0 => some []
  | [], _ + 1 => none
  | c :: cs, n + 1 => if c.utf8Size ≤ n + 1 then (takeBytes cs (n + 1 - c.utf8Size)).map (c :: ·) else none

def slicePrefix (s : String) (n : Nat) : Option String := (takeBytes s.toList n).map String.ofList

def split (c : Char) (s : String) : List String := (s.toList.splitOn c).map String.ofList

def containsText (needle s : String) : Bool := decide (needle.toList <:+: s.toList)

theorem trimChars_unblank {cs : List Char} (h : ∀ c ∈ cs, isWhitespace c = false) : trimChars cs = cs := by
  have hdrop : ∀ ds : List Char, (∀ c ∈ ds, isWhitespace c = false) → ds.dropWhile isWhitespace = ds := by
    intro ds hds
    cases ds with
    | nil => rfl
    | cons d ds => rw [List.dropWhile_cons_of_neg (by simp [hds d List.mem_cons_self])]
  rw [trimChars, hdrop cs h, hdrop cs.reverse (fun c hc => h c (List.mem_reverse.mp hc)), List.reverse_reverse]

theorem trim_unblank {s : String} (h : ∀ c ∈ s.toList, isWhitespace c = false) : trim s = s := by
  rw [trim, trimChars_unblank h, String.ofList_toList]

theorem trimChars_trimChars (cs : List Char) : trimChars (trimChars cs) = trimChars cs := by
  have hchars : ∀ cs, trimChars cs = (cs.dropWhile isWhitespace).rdropWhile isWhitespace := fun _ => rfl
  have hfront : (trimChars cs).dropWhile isWhitespace = trimChars cs := by
    cases htrimmed : trimChars cs with
    | nil => rfl
    | cons c rest =>
        rw [hchars] at htrimmed
        obtain ⟨back, hback⟩ := List.rdropWhile_prefix isWhitespace (cs.dropWhile isWhitespace)
        rw [htrimmed] at hback
        have hne : cs.dropWhile isWhitespace ≠ [] := by
          rw [← hback]
          exact List.cons_ne_nil _ _
        have hhead := List.head_dropWhile_not isWhitespace hne
        simp only [← hback, List.cons_append, List.head_cons] at hhead
        exact List.dropWhile_cons_of_neg (by simp [hhead])
  rw [hchars (trimChars cs), hfront, hchars, List.rdropWhile_idempotent]

theorem trim_trim (s : String) : trim (trim s) = trim s := by
  rw [trim, trim, String.toList_ofList, trimChars_trimChars]

theorem mem_trim {s : String} {c : Char} (h : c ∈ (trim s).toList) : c ∈ s.toList := by
  rw [trim, String.toList_ofList, trimChars, List.mem_reverse] at h
  have hmem := List.mem_reverse.mp ((List.dropWhile_sublist _).subset h)
  exact (List.dropWhile_sublist _).subset hmem

theorem takeBytes_isSome {cs : List Char} (h : ∀ c ∈ cs, c.utf8Size = 1) {n : Nat} (hn : n ≤ cs.length) :
    (takeBytes cs n).isSome = true := by
  induction cs generalizing n with
  | nil =>
      obtain rfl := Nat.le_zero.mp hn
      rfl
  | cons c cs ih =>
      cases n with
      | zero => rfl
      | succ n =>
          have hc := h c List.mem_cons_self
          simpa [takeBytes, hc] using ih (fun c hc => h c (List.mem_cons_of_mem _ hc)) (Nat.le_of_succ_le_succ hn)

theorem slicePrefix_isSome {s : String} (h : ∀ c ∈ s.toList, c.utf8Size = 1) {n : Nat} (hn : n ≤ byteLength s) :
    (slicePrefix s n).isSome = true := by
  have hlen : byteLength s = s.toList.length := by
    rw [byteLength, List.map_congr_left (g := fun _ => 1) h]
    simp
  rw [slicePrefix, Option.isSome_map]
  exact takeBytes_isSome h (hlen ▸ hn)

end MLRunX.Text
