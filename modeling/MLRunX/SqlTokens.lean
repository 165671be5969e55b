import Mathlib.Data.List.SplitBy
import MLRunX.Connectives
import MLRunX.Text

namespace MLRunX.SqlTokens

open Connectives Text

variable {β : Type}

/-- A word of an operand, or a value where the text has a placeholder. -/
inductive Word (β : Type)
  | text (s : String)
  | bound (value : β)
  deriving DecidableEq, Repr

def isLetter (c : Char) : Bool := c.isAlphanum || c == '_' || c == '.'

def isSign (c : Char) : Bool := ['=', '!', '<', '>'].contains c

def sameToken : Char ⊕ β → Char ⊕ β → Bool
  | .inl c, .inl d => (isLetter c && isLetter d) || (isSign c && isSign d)
  | _, _ => false

def wordToken (s : String) : Option (Token (Word β)) :=
  if s = " " then none
  else if s = "(" then some .lParen
  else if s = ")" then some .rParen
  else if eqIgnoreAsciiCase s "and" then some .and
  else if eqIgnoreAsciiCase s "or" then some .or
  else some (.word (.text s))

def toToken : List (Char ⊕ β) → Option (Token (Word β))
  | .inr value :: _ => some (.word (.bound value))
  | cs => wordToken (String.ofList (cs.filterMap Sum.getLeft?))

/-- The tokens of a text with its values in place. Spaces only separate them. -/
def tokens (cs : List (Char ⊕ β)) : List (Token (Word β)) := (cs.splitBy sameToken).filterMap toToken

def alone : Char ⊕ β → Bool
  | .inl c => !isLetter c && !isSign c
  | .inr _ => true

theorem sameToken_left {a : Char ⊕ β} (h : alone a = true) (b : Char ⊕ β) : sameToken a b = false := by
  cases a with
  | inr value => rfl
  | inl c =>
      cases b with
      | inr value => rfl
      | inl d => simp_all [alone, sameToken]

theorem sameToken_right (a : Char ⊕ β) {b : Char ⊕ β} (h : alone b = true) : sameToken a b = false := by
  cases b with
  | inr value => cases a <;> rfl
  | inl d =>
      cases a with
      | inr value => rfl
      | inl c => simp_all [alone, sameToken]

theorem tokens_append {cs ds : List (Char ⊕ β)}
    (h : ∀ c ∈ cs.getLast?, ∀ d ∈ ds.head?, sameToken c d = false) :
    tokens (cs ++ ds) = tokens cs ++ tokens ds := by
  rw [tokens, List.splitBy_append h, List.filterMap_append]
  rfl

theorem tokens_append_of_closes {cs : List (Char ⊕ β)} (h : cs.getLast?.all alone = true) (ds : List (Char ⊕ β)) :
    tokens (cs ++ ds) = tokens cs ++ tokens ds := by
  apply tokens_append
  intro c hc d hd
  apply sameToken_left
  simpa [Option.mem_def.mp hc] using h

theorem tokens_append_of_opens (cs : List (Char ⊕ β)) {ds : List (Char ⊕ β)} (h : ds.head?.all alone = true) :
    tokens (cs ++ ds) = tokens cs ++ tokens ds := by
  apply tokens_append
  intro c hc d hd
  apply sameToken_right
  simpa [Option.mem_def.mp hd] using h

end MLRunX.SqlTokens
